import TypeAssertions.CompilerOptions
import TypeAssertions.Config.Extends
import TypeAssertions.Config.Options

/-!
# Resolution of configurations

`resolve` finds the compiler options for a test file: those of the project's configuration, or of
the nearest configuration above the file, merged along what it extends and then over the defaults.
Whatever is wrong with the files or with an option is a diagnostic of the configuration.
-/

namespace TypeAssertions.Config

open Json

/-- The configuration nearest to a directory, in it or above it. -/
def nearest? (fs : FileSystem) (directory : Path) : Option Path :=
  (directory.ancestors.map fun above => above.child ConfigFile.fileName).find? fs.isFile

/-- The strings of a value that is a list of strings. -/
def stringsOf : Value → List String
  | .array items =>
    items.filterMap fun
      | .string s => some s
      | _ => none
  | _ => []

/-- The string that a value is, or the empty string. -/
def stringOf : Value → String
  | .string s => s
  | _ => ""

/-- The truth value that a value is, or another one. -/
def truthOf (otherwise : Bool) : Value → Bool
  | .bool b => b
  | _ => otherwise

/-- Compiler options with one of them set. -/
def setOption (o : CompilerOptions) (name : String) (v : Value) : CompilerOptions :=
  if name = "strict" then { o with strict := truthOf o.strict v }
  else if name = "target" then { o with target := stringOf v }
  else if name = "module" then { o with module := stringOf v }
  else if name = "moduleResolution" then { o with moduleResolution := some (stringOf v) }
  else if name = "jsx" then { o with jsx := some (stringOf v) }
  else if name = "lib" then { o with lib := stringsOf v }
  else if name = "esModuleInterop" then
    { o with esModuleInterop := truthOf o.esModuleInterop v }
  else if name = "skipLibCheck" then { o with skipLibCheck := truthOf o.skipLibCheck v }
  else if name = "types" then { o with types := some (stringsOf v) }
  else { o with extra := o.extra.insert name v }

/-- The compiler options and diagnostics after one more option, set by the file `origin`.  A `null`
leaves the default. -/
def applyOption (r : Resolved) (origin : Option String) (name : String) (v : Value) : Resolved :=
  match optionKind? name with
  | none =>
    let unknown : Diagnostic := .ofCode origin Code.unknownOption [name]
    { r with diagnostics := r.diagnostics ++ [unknown] }
  | some kind =>
    if v = .null then r
    else
      match kind.check v with
      | .ok v => { r with options := setOption r.options name v }
      | .error misfit =>
        { r with diagnostics := r.diagnostics ++ [misfit.diagnostic origin name] }

/-- The compiler options of sources, and a diagnostic for each option that is unknown or unfit. -/
def apply (sources : Sources) : Resolved :=
  sources.options.entries.foldl
    (fun r option => applyOption r (sources.origins.get? option.1) option.1 option.2)
    ⟨.default, []⟩

/-- The configuration of a test file: that of the project, or the nearest one. -/
def configPath? (fs : FileSystem) (project : Option Path) (file : Path) : Option Path :=
  match project with
  | some p => some p
  | none => file.parent?.bind (nearest? fs)

/-- The compiler options for a test file. -/
def resolve (fs : FileSystem) (project : Option Path) (file : Path) : Resolved :=
  match configPath? fs project file with
  | none => ⟨.default, []⟩
  | some p =>
    match (load fs p []).result with
    | .ok sources => apply sources
    | .error d => ⟨.default, [d]⟩

end TypeAssertions.Config
