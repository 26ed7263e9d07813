import TypeAssertions.Json.Problem

/-!
# Numerals

`readNumber` reads the number at the start of a text.  An integer of 64 bits keeps its value.
Any other numeral becomes a double: its leading digits, as many as fit into 64 bits, scaled by a
power of ten.  `NumberPhase` is the same grammar as an automaton, which finds where a numeral ends.
-/

namespace TypeAssertions.Json

/-- The greatest integer of 64 bits. -/
def maxSignificand : Nat := UInt64.size - 1

/-- The greatest power of ten in a numeral before its double is certainly out of range. -/
def maxPower : Nat := UInt32.size / 2 - 1

/-- The value of a digit. -/
def digitValue (c : Char) : Nat := c.toNat - '0'.toNat

/-- The leading digits of a numeral that fit into 64 bits, and the power of ten they stand for. -/
structure Significand where
  digits : Nat
  power : Int
  full : Bool
  deriving DecidableEq, Repr

/-- The significand with one more digit before the point. -/
def Significand.addWhole (s : Significand) (c : Char) : Significand :=
  let next := s.digits * 10 + digitValue c
  if s.full ∨ maxSignificand < next then ⟨s.digits, s.power + 1, true⟩
  else { s with digits := next }

/-- The significand with one more digit after the point. -/
def Significand.addFraction (s : Significand) (c : Char) : Significand :=
  let next := s.digits * 10 + digitValue c
  if s.full ∨ maxSignificand < next then { s with full := true }
  else ⟨next, s.power - 1, false⟩

/-- The double divided by `10 ^ 308` a number of times, or as often as it takes to reach zero. -/
def divideLarge (step : Double) : Nat → Double → Double
  | 0, x => x
  | n + 1, x => if x.isZero then x else divideLarge step n ((x.div? step).getD x)

/-- The double `digits * 10 ^ power`, computed in double precision step by step. -/
def scale? (digits : Nat) (power : Int) : Option Double := do
  let x ← Double.ofNat? digits
  let large ← Double.ofNat? (tenPower 308)
  if 0 ≤ power then
    if power ≤ 308 then x.mul? (← Double.ofNat? (tenPower power.toNat))
    else if x.isZero then some x else none
  else
    let steps := (power.natAbs - 1) / 308
    let y := divideLarge large steps x
    if y.isZero then some y
    else y.div? (← Double.ofNat? (tenPower (power.natAbs - 308 * steps)))

/-- The double of a sign and a significand, or a failure noticed after `offset` bytes. -/
def toDouble (negative : Bool) (s : Significand) (power : Int) (offset : Nat) :
    Except Failure Number :=
  match scale? s.digits (s.power + power) with
  | some x => .ok (.double (if negative then x.neg else x))
  | none => .error ⟨.numberOutOfRange, offset⟩

/-- The power of ten that digits spell, or the number of digits after which it is beyond
`maxPower`. -/
def readPower (value seen : Nat) : List Char → Except Nat Nat
  | [] => .ok value
  | c :: cs =>
    let next := value * 10 + digitValue c
    if maxPower < next then .error (seen + 1) else readPower next (seen + 1) cs

/-- The number of a significand that is followed by neither a point nor an exponent. -/
def wholeNumber (negative : Bool) (s : Significand) (offset : Nat) : Except Failure Number :=
  if s.full then toDouble negative s 0 offset
  else if !negative then .ok (.integer s.digits)
  else if 0 < s.digits ∧ s.digits ≤ UInt64.size / 2 then .ok (.integer (-s.digits))
  else toDouble true s 0 offset

/-- The failure of a numeral that breaks off before a text that starts at byte `offset`. -/
def brokenNumeral (offset : Nat) : List Char → Failure
  | [] => ⟨.endInValue, offset⟩
  | _ :: _ => ⟨.invalidNumber, offset + 1⟩

/-- The exponent, if there is one, of a numeral with a point or an exponent. -/
def readExponent (negative : Bool) (s : Significand) (offset : Nat) (cs : List Char) :
    Except Failure Number :=
  match cs with
  | 'e' :: rest | 'E' :: rest =>
    let (down, rest, offset) :=
      match rest with
      | '+' :: rest => (false, rest, offset + 2)
      | '-' :: rest => (true, rest, offset + 2)
      | rest => (false, rest, offset + 1)
    let digits := rest.takeWhile Char.isDigit
    if digits.isEmpty then .error (brokenNumeral offset rest)
    else
      match readPower 0 0 digits with
      | .ok power =>
        toDouble negative s (if down then -power else power) (offset + digits.length)
      | .error seen =>
        if s.digits ≠ 0 ∧ !down then .error ⟨.numberOutOfRange, offset + seen⟩
        else .ok (.double (.zero negative))
  | _ => toDouble negative s 0 offset

/-- The rest of a numeral after the digits before the point. -/
def readFraction (negative : Bool) (s : Significand) (offset : Nat) (cs : List Char) :
    Except Failure Number :=
  match cs with
  | '.' :: rest =>
    let digits := rest.takeWhile Char.isDigit
    if digits.isEmpty then .error (brokenNumeral (offset + 1) rest)
    else
      let s := digits.foldl Significand.addFraction { s with full := false }
      readExponent negative s (offset + 1 + digits.length) (rest.dropWhile Char.isDigit)
  | 'e' :: _ | 'E' :: _ => readExponent negative s offset cs
  | _ => wholeNumber negative s offset

/-- The numeral without its sign. -/
def readUnsigned (negative : Bool) (offset : Nat) (cs : List Char) : Except Failure Number :=
  match cs with
  | '0' :: rest =>
    match rest with
    | c :: _ =>
      if c.isDigit then .error ⟨.invalidNumber, offset + 2⟩
      else readFraction negative ⟨0, 0, false⟩ (offset + 1) rest
    | [] => wholeNumber negative ⟨0, 0, false⟩ (offset + 1)
  | _ =>
    let digits := cs.takeWhile Char.isDigit
    if digits.isEmpty then .error (brokenNumeral offset cs)
    else
      readFraction negative (digits.foldl Significand.addWhole ⟨0, 0, false⟩)
        (offset + digits.length) (cs.dropWhile Char.isDigit)

/-- The number at the start of a text that starts at byte `offset`. -/
def readNumber (offset : Nat) : List Char → Except Failure Number
  | '-' :: rest => readUnsigned true (offset + 1) rest
  | cs => readUnsigned false offset cs

/-- How far a numeral has been read. -/
inductive NumberPhase where
  | sign
  | zero
  | whole
  | point
  | fraction
  | exponent
  | exponentSign
  | power
  deriving DecidableEq, Repr

/-- What a character means to a numeral: it goes on, it has ended before it, or it is broken. -/
inductive NumberStep where
  | next (phase : NumberPhase)
  | ended
  | broken
  deriving DecidableEq, Repr

/-- Whether the numeral may end here. -/
def NumberPhase.complete : NumberPhase → Bool
  | .zero | .whole | .fraction | .power => true
  | .sign | .point | .exponent | .exponentSign => false

/-- The meaning of a character after a numeral read so far. -/
def NumberPhase.step (phase : NumberPhase) (c : Char) : NumberStep :=
  match phase with
  | .sign => if c = '0' then .next .zero else if c.isDigit then .next .whole else .broken
  | .zero =>
    if c.isDigit then .broken else if c = '.' then .next .point
    else if c = 'e' ∨ c = 'E' then .next .exponent else .ended
  | .whole =>
    if c.isDigit then .next .whole else if c = '.' then .next .point
    else if c = 'e' ∨ c = 'E' then .next .exponent else .ended
  | .point => if c.isDigit then .next .fraction else .broken
  | .fraction =>
    if c.isDigit then .next .fraction
    else if c = 'e' ∨ c = 'E' then .next .exponent else .ended
  | .exponent =>
    if c.isDigit then .next .power
    else if c = '+' ∨ c = '-' then .next .exponentSign else .broken
  | .exponentSign => if c.isDigit then .next .power else .broken
  | .power => if c.isDigit then .next .power else .ended

end TypeAssertions.Json
