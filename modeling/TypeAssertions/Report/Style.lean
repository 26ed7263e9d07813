import TypeAssertions.Diagnostic.Basic

/-!
# Styles of text

A `Style` is a list of attributes of a terminal.  `Style.paint` puts a text between the sequence
that selects them and the one that resets them, or leaves it plain when there is no color.
-/

namespace TypeAssertions.Report

/-- The attributes of a text on a terminal. -/
structure Style where
  attributes : String
  deriving DecidableEq, Repr

namespace Style

/-- Red. -/
def red : Style := ⟨"31"⟩

/-- Green. -/
def green : Style := ⟨"32"⟩

/-- Yellow. -/
def yellow : Style := ⟨"33"⟩

/-- Bright blue. -/
def brightBlue : Style := ⟨"94"⟩

/-- Bold red. -/
def boldRed : Style := ⟨"1;31"⟩

/-- The style of the name of a category: bold, in a color of its own. -/
def ofCategory : Category → Style
  | .error => boldRed
  | .warning => ⟨"1;33"⟩
  | .suggestion => ⟨"1;34"⟩
  | .message => ⟨"1;36"⟩

/-- A text in a style, if there is color. -/
def paint (style : Style) (color : Bool) (text : String) : String :=
  if color then s!"\x1b[{style.attributes}m" ++ text ++ "\x1b[0m" else text

end Style

end TypeAssertions.Report
