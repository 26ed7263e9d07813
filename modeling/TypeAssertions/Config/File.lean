import TypeAssertions.Config.Comments
import TypeAssertions.Config.TrailingCommas
import TypeAssertions.Json.Decoder

/-!
# Configuration files

A configuration file names the configurations that it extends and sets options.  It is JSON in
which comments and trailing commas are allowed.
-/

namespace TypeAssertions.Config

open Json

/-- The configurations that a file extends, in order, and the options that it sets. -/
structure ConfigFile where
  bases : List String
  options : OrderedMap String Value
  deriving DecidableEq

namespace ConfigFile

/-- The name of configuration files. -/
def fileName : String := "tsconfig.json"

/-- The strings of a list of values, when all are strings. -/
def strings? : List Value → Option (List String)
  | [] => some []
  | .string s :: vs => (strings? vs).map (s :: ·)
  | _ :: _ => none

/-- A reader of what a file extends: one string or a list of strings. -/
def basesDecoder : Decoder (List String) := fun depth t =>
  match Decoder.value depth t with
  | .error f => .error f
  | .ok (.string s) => .ok [s]
  | .ok (.array vs) =>
    match strings? vs with
    | some bases => .ok bases
    | none => .error ⟨.noVariant "Extends", t.entered⟩
  | .ok _ => .error ⟨.noVariant "Extends", t.entered⟩

/-- The parts of a configuration file that have been read. -/
structure Draft where
  bases : Option (Option (List String)) := none
  options : Option (Option (OrderedMap String Value)) := none

/-- The configuration file of a draft. -/
def Draft.complete (d : Draft) : ConfigFile :=
  ⟨(d.bases.getD none).getD [], (d.options.getD none).getD .empty⟩

/-- How a configuration file is read. -/
def shape : RecordShape Draft ConfigFile where
  name := "TsConfig"
  fields :=
    [.of "extends" false Draft.bases (fun d bases => { d with bases }) (.optional basesDecoder),
      .of "compilerOptions" false Draft.options (fun d options => { d with options })
        (.optional .members)]
  start := {}
  complete draft := .ok draft.complete

/-- The text of a configuration file as plain JSON. -/
def plainJson (text : List Char) : List Char :=
  removeTrailingCommas (stripComments text)

/-- The configuration that a text writes. -/
def ofText (text : List Char) : Except ReadError ConfigFile :=
  shape.decoder.readText (plainJson text)

end ConfigFile

end TypeAssertions.Config
