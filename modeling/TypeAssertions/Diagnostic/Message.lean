import TypeAssertions.Diagnostic.Basic

/-!
# Diagnostic codes and messages

The codes that reconciliation tells apart, and the messages of the diagnostics that are issued
about configurations.  A message is a template in which a number between braces stands for an
argument; `fill` replaces the arguments one after the other, so that an argument may bring in the
place of a later one.
-/

namespace TypeAssertions

namespace Code

/-- A top-level `await` under options that forbid it. -/
def topLevelAwait : UInt32 := 1378

/-- A value of a type that does not fit. -/
def notAssignable : UInt32 := 2322

/-- An argument of a type that does not fit. -/
def argumentNotAssignable : UInt32 := 2345

/-- An option that is not known. -/
def unknownOption : UInt32 := 5023

/-- An option with a value of the wrong type. -/
def optionType : UInt32 := 5024

/-- A configuration file that cannot be read. -/
def cannotRead : UInt32 := 5083

/-- An option with a value that is not among its choices. -/
def optionChoice : UInt32 := 6046

/-- A configuration that extends itself. -/
def circularity : UInt32 := 18000

/-- The codes that are dropped wherever they are reported. -/
def ignored : List UInt32 := [topLevelAwait]

/-- The codes that an expected error may absorb. -/
def suppressible : List UInt32 :=
  [2314, notAssignable, 2339, 2344, argumentNotAssignable, 2348, 2349, 2350, 2351, 2353, 2540, 2542,
    2554, 2555, 2559, 2561, 2575, 2684, 2707, 2741, 2743, 2769, 2820, 4113, 4114, 7009]

end Code

/-- The category and the message of a code. -/
structure Template where
  code : UInt32
  category : Category
  text : String
  deriving DecidableEq, Repr

namespace Template

/-- The messages of the codes that have one. -/
def all : List Template :=
  [⟨Code.topLevelAwait, .error,
      "Top-level 'await' expressions are only allowed when the 'module' option is set to "
        ++ "'es2022', 'esnext', 'system', 'node16', 'nodenext', or 'preserve', and the 'target' "
        ++ "option is set to 'es2017' or higher."⟩,
    ⟨Code.notAssignable, .error, "Type '\x7b0\x7d' is not assignable to type '\x7b1\x7d'."⟩,
    ⟨Code.argumentNotAssignable, .error,
      "Argument of type '\x7b0\x7d' is not assignable to parameter of type '\x7b1\x7d'."⟩,
    ⟨Code.unknownOption, .error, "Unknown compiler option '\x7b0\x7d'."⟩,
    ⟨Code.optionType, .error,
      "Compiler option '\x7b0\x7d' requires a value of type \x7b1\x7d."⟩,
    ⟨Code.cannotRead, .error, "Cannot read file '\x7b0\x7d'."⟩,
    ⟨Code.optionChoice, .error, "Argument for '\x7b0\x7d' option must be: \x7b1\x7d."⟩,
    ⟨Code.circularity, .error,
      "Circularity detected while resolving configuration: \x7b0\x7d"⟩]

/-- The template of a code. -/
def find? (code : UInt32) : Option Template := all.find? fun t => t.code = code

/-- A text with every occurrence of `pattern`, from left to right, replaced; the first `skipped`
characters belong to an occurrence before them. -/
def replaceFrom (pattern replacement : List Char) : Nat → List Char → List Char
  | _, [] => []
  | skipped + 1, _ :: cs => replaceFrom pattern replacement skipped cs
  | 0, c :: cs =>
    if pattern.isPrefixOf (c :: cs) then
      replacement ++ replaceFrom pattern replacement (pattern.length - 1) cs
    else c :: replaceFrom pattern replacement 0 cs

/-- The place of argument `i` in a template. -/
def place (i : Nat) : List Char := '\x7b' :: Nat.toDigits 10 i ++ ['\x7d']

/-- A text with the places of the arguments, of which the first has number `i`, replaced in turn. -/
def fillFrom (i : Nat) (text : List Char) : List String → List Char
  | [] => text
  | argument :: rest =>
    fillFrom (i + 1) (replaceFrom (place i) argument.toList 0 text) rest

/-- A text with the places of the arguments replaced in turn. -/
def fill (text : String) (arguments : List String) : String :=
  String.ofList (fillFrom 0 text.toList arguments)

end Template

/-- The diagnostic of a code about a file: its message with the arguments filled in, or the bare
code when it has no message. -/
def Diagnostic.ofCode (file : Option String) (code : UInt32) (arguments : List String) :
    Diagnostic :=
  match Template.find? code with
  | some t => ⟨file, 0, 0, Template.fill t.text arguments, t.category, code⟩
  | none => ⟨file, 0, 0, s!"TS{code}", .error, code⟩

end TypeAssertions
