import TypeAssertions.Diagnostic.Basic
import TypeAssertions.Json.Decoder
import TypeAssertions.Json.Printer

/-!
# Compiler options

The options that a checker is run with: the ones that have a default, and any others as they were
written.  As JSON they form one object, in which absent options are left out and the other options
come last in their order; reading it, an option that is left out has its default.  A `Resolved`
value is the options of a test file with what is wrong with the configuration that gives them.
-/

namespace TypeAssertions

open Json

/-- The options of a checker. -/
structure CompilerOptions where
  strict : Bool := true
  target : String := "es2020"
  module : String := "commonjs"
  moduleResolution : Option String := none
  jsx : Option String := some "react"
  lib : List String := ["es2020", "dom"]
  esModuleInterop : Bool := true
  skipLibCheck : Bool := false
  types : Option (List String) := none
  extra : OrderedMap String Value := .empty
  deriving DecidableEq

namespace CompilerOptions

/-- The options when nothing is said about them. -/
def default : CompilerOptions := {}

/-- A list of strings as a value. -/
def stringList (l : List String) : Value := .array (l.map .string)

/-- The JSON form of options. -/
def toJson (o : CompilerOptions) : Value :=
  .object
    ([("strict", .bool o.strict), ("target", .string o.target), ("module", .string o.module)]
    ++ (o.moduleResolution.map fun s => ("moduleResolution", Value.string s)).toList
    ++ (o.jsx.map fun s => ("jsx", Value.string s)).toList
    ++ [("lib", stringList o.lib), ("esModuleInterop", .bool o.esModuleInterop),
      ("skipLibCheck", .bool o.skipLibCheck)]
    ++ (o.types.map fun l => ("types", stringList l)).toList
    ++ o.extra.entries)

/-- The options that have been read. -/
structure Draft where
  strict : Option Bool := none
  target : Option String := none
  module : Option String := none
  moduleResolution : Option (Option String) := none
  jsx : Option (Option String) := none
  lib : Option (List String) := none
  esModuleInterop : Option Bool := none
  skipLibCheck : Option Bool := none
  types : Option (Option (List String)) := none
  extra : OrderedMap String Value := .empty

/-- The options of a draft. -/
def Draft.complete (d : Draft) : CompilerOptions where
  strict := d.strict.getD default.strict
  target := d.target.getD default.target
  module := d.module.getD default.module
  moduleResolution := d.moduleResolution.getD default.moduleResolution
  jsx := d.jsx.getD default.jsx
  lib := d.lib.getD default.lib
  esModuleInterop := d.esModuleInterop.getD default.esModuleInterop
  skipLibCheck := d.skipLibCheck.getD default.skipLibCheck
  types := d.types.getD default.types
  extra := d.extra

/-- How options are read. -/
def shape : RecordShape Draft CompilerOptions where
  name := "CompilerConfig"
  fields :=
    [.of "strict" false Draft.strict (fun d strict => { d with strict }) .bool,
      .of "target" false Draft.target (fun d target => { d with target }) .string,
      .of "module" false Draft.module (fun d module => { d with module }) .string,
      .of "moduleResolution" false Draft.moduleResolution
        (fun d moduleResolution => { d with moduleResolution }) (.optional .string),
      .of "jsx" false Draft.jsx (fun d jsx => { d with jsx }) (.optional .string),
      .of "lib" false Draft.lib (fun d lib => { d with lib }) (.list .string),
      .of "esModuleInterop" false Draft.esModuleInterop
        (fun d esModuleInterop => { d with esModuleInterop }) .bool,
      .of "skipLibCheck" false Draft.skipLibCheck
        (fun d skipLibCheck => { d with skipLibCheck }) .bool,
      .of "types" false Draft.types (fun d types => { d with types })
        (.optional (.list .string))]
  start := {}
  other depth name draft t := do
    let value ← Decoder.value depth t
    return { draft with extra := draft.extra.insert name value }
  complete draft := .ok draft.complete

/-- A reader of options. -/
def decoder : Decoder CompilerOptions := shape.objectDecoder

end CompilerOptions

/-- Compiler options and what is wrong with the configuration that gives them. -/
structure Resolved where
  options : CompilerOptions
  diagnostics : List Diagnostic
  deriving DecidableEq

end TypeAssertions
