/-!
# Doubles

A `Double` is a finite number of double precision: a sign, a mantissa below `2 ^ 53` and an
exponent of two.  `round?` is the double nearest to a fraction, ties going to the even mantissa,
and `mul?` and `div?` round the exact result in the same way; all three fail beyond the largest
double.  `shortest` is the decimal with the fewest digits among those nearer to the double than
to any other, and `Double.text` writes it.
-/

namespace TypeAssertions.Json

/-- A power of ten. -/
def tenPower (n : Nat) : Nat := Nat.pow 10 n

/-- The number `± mantissa * 2 ^ exponent`. -/
structure Double where
  negative : Bool
  mantissa : Nat
  exponent : Int
  deriving DecidableEq, Repr

/-- The number `digits * 10 ^ exponent`. -/
structure Decimal where
  digits : Nat
  exponent : Int
  deriving DecidableEq, Repr

namespace Double

/-- The least exponent of a double. -/
def minExponent : Int := -1074

/-- The greatest exponent of a double. -/
def maxExponent : Int := 971

/-- The least mantissa of 53 bits. -/
def fullMantissa : Nat := 1 <<< 52

/-- The double zero of a sign. -/
def zero (negative : Bool) : Double := ⟨negative, 0, minExponent⟩

/-- Whether the double is a zero. -/
def isZero (x : Double) : Bool := x.mantissa == 0

/-- The double of the opposite sign. -/
def neg (x : Double) : Double := { x with negative := !x.negative }

/-- The exponent at which the fraction `num / den` has a mantissa of 53 bits, or the least one
when it is too small for that. -/
def exponentOf (num den : Nat) : Int :=
  let low := max ((num.log2 : Int) - den.log2 - 53) minExponent
  if den <<< (53 + low).toNat ≤ num <<< (-(53 + low)).toNat then low + 1 else low

/-- The double nearest to the fraction `num / den`, of two equally near ones the one with an even
mantissa. -/
def round? (negative : Bool) (num den : Nat) : Option Double :=
  if num = 0 then some (zero negative)
  else
    let e := exponentOf num den
    let scaled := num <<< (-e).toNat
    let unit := den <<< e.toNat
    let below := scaled / unit
    let twice := 2 * (scaled % unit)
    let up := unit < twice ∨ (twice = unit ∧ below % 2 = 1)
    let m := if up then below + 1 else below
    let (m, e) := if m = 2 * fullMantissa then (fullMantissa, e + 1) else (m, e)
    if maxExponent < e then none else some ⟨negative, m, e⟩

/-- The double nearest to a natural number. -/
def ofNat? (n : Nat) : Option Double := round? false n 1

/-- The product of two doubles. -/
def mul? (x y : Double) : Option Double :=
  let e := x.exponent + y.exponent
  round? (x.negative != y.negative) ((x.mantissa * y.mantissa) <<< e.toNat) (1 <<< (-e).toNat)

/-- The quotient of two doubles. -/
def div? (x y : Double) : Option Double :=
  let e := x.exponent - y.exponent
  round? (x.negative != y.negative) (x.mantissa <<< e.toNat) (y.mantissa <<< (-e).toNat)

/-! ### Decimal digits -/

/-- The order of `a * 10 ^ i` and `n * 2 ^ j`. -/
def compareScaled (a : Nat) (i : Int) (n : Nat) (j : Int) : Ordering :=
  compare ((a * tenPower i.toNat) <<< (-j).toNat) ((n * tenPower (-i).toNat) <<< j.toNat)

/-- Whether the double, without its sign, is the nearest one to a decimal. -/
def isNearest (x : Double) (d : Decimal) : Bool :=
  let narrow := x.mantissa == fullMantissa && minExponent < x.exponent
  let low := if narrow then 4 * x.mantissa - 1 else 4 * x.mantissa - 2
  let high := 4 * x.mantissa + 2
  let ends := x.mantissa % 2 == 0
  let atLow := compareScaled d.digits d.exponent low (x.exponent - 2)
  let atHigh := compareScaled d.digits d.exponent high (x.exponent - 2)
  (atLow == .gt || (ends && atLow == .eq)) && (atHigh == .lt || (ends && atHigh == .eq))

/-- The least `k` from `low` on, among `steps` candidates, with `x < 10 ^ k`. -/
def magnitudeFrom (x : Double) : Nat → Int → Int
  | 0, low => low
  | steps + 1, low =>
    if compareScaled 1 low x.mantissa x.exponent == .gt then low
    else magnitudeFrom x steps (low + 1)

/-- The least `k` with `x < 10 ^ k`. -/
def magnitude (x : Double) : Int :=
  let bits := (x.mantissa.log2 : Int) + x.exponent
  magnitudeFrom x 4 (bits * 30103 / 100000 - 1)

/-- The decimal of `n` digits that is nearest to the double and lies nearer to it than to any
other, if there is one. -/
def nearestOfLength? (x : Double) (n : Nat) : Option Decimal :=
  let grid := x.magnitude - n
  let scaled := (x.mantissa * tenPower (-grid).toNat) <<< x.exponent.toNat
  let unit := tenPower grid.toNat <<< (-x.exponent).toNat
  let below := scaled / unit
  let twice := 2 * (scaled % unit)
  let lower : Decimal := ⟨below, grid⟩
  let upper : Decimal := ⟨below + 1, grid⟩
  let preferUpper := unit < twice ∨ (twice = unit ∧ below % 2 = 1)
  match x.isNearest lower, x.isNearest upper with
  | true, true => some (if preferUpper then upper else lower)
  | true, false => some lower
  | false, true => some upper
  | false, false => none

/-- The decimal without zeros at its end, at most `steps` of them. -/
def stripZeros : Nat → Decimal → Decimal
  | 0, d => d
  | steps + 1, d =>
    if d.digits % 10 = 0 then stripZeros steps ⟨d.digits / 10, d.exponent + 1⟩ else d

/-- The shortest decimal to which the double, not a zero, is the nearest one. -/
def shortest (x : Double) : Decimal :=
  match (List.range 17).findSome? fun n => x.nearestOfLength? (n + 1) with
  | some d => stripZeros 17 d
  | none =>
    let fraction := (-x.exponent).toNat
    ⟨((x.mantissa * tenPower fraction) <<< x.exponent.toNat) >>> fraction, -fraction⟩

/-- The text of a decimal: positional from `10 ^ -5` to below `10 ^ 16`, and with an exponent
otherwise. -/
def decimalText (d : Decimal) : List Char :=
  let digits := Nat.toDigits 10 d.digits
  let point := (digits.length : Int) + d.exponent
  if 0 ≤ d.exponent ∧ point ≤ 16 then
    digits ++ List.replicate d.exponent.toNat '0' ++ ['.', '0']
  else if 0 < point ∧ point ≤ 16 then
    digits.take point.toNat ++ '.' :: digits.drop point.toNat
  else if -5 < point ∧ point ≤ 0 then
    ['0', '.'] ++ List.replicate (-point).toNat '0' ++ digits
  else
    let power := point - 1
    let fraction := if digits.length = 1 then [] else '.' :: digits.drop 1
    let sign := if power < 0 then '-' else '+'
    digits.take 1 ++ fraction ++ ['e', sign] ++ Nat.toDigits 10 power.natAbs

/-- The text of a double: its shortest decimal, with a point or an exponent. -/
def text (x : Double) : List Char :=
  (if x.negative then ['-'] else []) ++
    if x.isZero then ['0', '.', '0'] else decimalText x.shortest

end Double

end TypeAssertions.Json
