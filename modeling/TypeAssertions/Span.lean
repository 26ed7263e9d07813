/-!
# Spans

A `Span` is a half-open range of bytes in one file of a checked program.  `Span.surrounds` is the
relation by which an expectation is matched with an error: strictly inside, neither at the first
byte nor at the end.
-/

namespace TypeAssertions

/-- The number of a file in a checked program. -/
structure FileId where
  index : UInt32
  deriving DecidableEq, Repr

/-- The bytes of a file from `start` up to, and not including, `stop`. -/
structure Span where
  file : FileId
  start : UInt32
  stop : UInt32
  deriving DecidableEq, Repr

namespace Span

/-- The number of bytes of a span. -/
def length (s : Span) : Nat := s.stop.toNat - s.start.toNat

/-- Whether a span has no bytes. -/
def isEmpty (s : Span) : Bool := s.stop ≤ s.start

/-- Whether an offset lies strictly inside a span. -/
def surrounds (s : Span) (offset : UInt32) : Bool := s.start < offset && offset < s.stop

/-- The text of a span. -/
def text (s : Span) : String := s!"#{s.file.index}[{s.start}..{s.stop})"

theorem surrounds_iff (s : Span) (offset : UInt32) :
  s.surrounds offset = true ↔ s.start < offset ∧ offset < s.stop
  := by
  simp [surrounds]

end Span

end TypeAssertions
