import TypeAssertions.Diagnostic.Basic
import TypeAssertions.Json.Decoder
import TypeAssertions.Json.Printer

/-!
# Diagnostics as JSON

A diagnostic without a file is written without the member `file`.  When it is read, the offsets
may be left out and are then zero, and so may the category, which is then `error`.
-/

namespace TypeAssertions.Diagnostic

open Json

/-- The members of the JSON form of a diagnostic. -/
def members (d : Diagnostic) : List (String × Value) :=
  (d.file.map fun file => ("file", Value.string file)).toList
    ++ [("start", .ofNat d.start.toNat), ("length", .ofNat d.length.toNat),
      ("messageText", .string d.text), ("category", .string d.category.name),
      ("code", .ofNat d.code.toNat)]

/-- The JSON form of a diagnostic. -/
def toJson (d : Diagnostic) : Value := .object d.members

/-- The fields of a diagnostic that have been read. -/
structure Draft where
  file : Option (Option String) := none
  start : Option UInt32 := none
  length : Option UInt32 := none
  text : Option String := none
  category : Option Category := none
  code : Option UInt32 := none

/-- The diagnostic of a draft. -/
def Draft.complete (d : Draft) : Except String Diagnostic := do
  let some text := d.text | throw "messageText"
  let some code := d.code | throw "code"
  return ⟨d.file.getD none, d.start.getD 0, d.length.getD 0, text, d.category.getD .error, code⟩

/-- How a diagnostic is read. -/
def shape : RecordShape Draft Diagnostic where
  name := "Diagnostic"
  fields :=
    [.of "file" false Draft.file (fun d file => { d with file }) (.optional .string),
      .of "start" false Draft.start (fun d start => { d with start }) .uint32,
      .of "length" false Draft.length (fun d length => { d with length }) .uint32,
      .of "messageText" true Draft.text (fun d text => { d with text }) .string,
      .of "category" false Draft.category (fun d category => { d with category })
        (.choice Category.byName none),
      .of "code" true Draft.code (fun d code => { d with code }) .uint32]
  start := {}
  complete := Draft.complete

/-- A reader of diagnostics. -/
def decoder : Decoder Diagnostic := shape.decoder

end TypeAssertions.Diagnostic
