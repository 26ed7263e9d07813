import TypeAssertions.CommandLine.Reading
import TypeAssertions.CommandLine.Usage
import TypeAssertions.Run
import TypeAssertions.Shell.Execution

/-!
# The program

`main` loads the file tree, runs what the command line asks for on it, and writes the transcript.
The tree holds what is below the working directory, and the files of the directories above it;
links are not followed.  Colors are for terminals: they are off when the output goes elsewhere.
-/

namespace TypeAssertions

/-- The entry of a directory's member on disk, unless it is a link or cannot be read. -/
partial def loadEntry (deep : Bool) (e : IO.FS.DirEntry) : IO (Option (String × Entry)) := do
  try
    match (← e.path.symlinkMetadata).type with
    | .file => return some (e.fileName, .file (← IO.FS.readBinFile e.path).toList)
    | .dir =>
      if deep then
        let entries ← (← e.path.readDir).toList.filterMapM (loadEntry deep)
        return some (e.fileName, .directory entries)
      else return none
    | _ => return none
  catch _ => return none

/-- The file tree that is seen from the working directory. -/
def loadTree : IO FileTree := do
  let here ← IO.currentDir
  let names := here.components.filter (· ≠ "")
  let mut above := here
  let mut entries ← (← here.readDir).toList.filterMapM (loadEntry true)
  for name in names.reverse do
    let inner := Entry.directory entries
    match above.parent with
    | some parent =>
      let files ← (← parent.readDir).toList.filterMapM (loadEntry false)
      entries := files ++ [(name, inner)]
      above := parent
    | none => entries := [(name, inner)]
  return ⟨entries, names⟩

/-- Runs what a command line asks for; the result is the exit code. -/
def perform (c : CommandLine) : IO Nat := do
  let terminal ← (← IO.getStdout).isTty
  let tree ← loadTree
  match run { c with noColor := c.noColor || !terminal } tree (Shell.launch tree) with
  | .ok transcript =>
    IO.eprint transcript.complaints
    IO.print transcript.output
    return transcript.status.code
  | .error e =>
    IO.eprint s!"error: {e.message}\n"
    return ExitStatus.error.code

end TypeAssertions

open TypeAssertions in
/-- Reads the arguments and carries them out. -/
def main (arguments : List String) : IO UInt32 := do
  match CommandLine.ofArguments arguments with
  | .ok c => return UInt32.ofNat (← perform c)
  | .error refusal =>
    if refusal.code = 0 then IO.print refusal.message else IO.eprint refusal.message
    return UInt32.ofNat refusal.code
