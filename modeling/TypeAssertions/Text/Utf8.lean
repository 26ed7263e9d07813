/-!
# UTF-8

`pieces` cuts a string of bytes into characters and ill-formed parts.  An ill-formed part is
the longest start of a character that cannot be completed, or a single byte that starts none.
`decode` gives the characters when every piece is one, and otherwise says where the first
ill-formed part stands; `decodeLossy` puts U+FFFD in place of each of them.
-/

namespace TypeAssertions.Text.Utf8

/-- The UTF-8 form of a text. -/
def encode (cs : List Char) : List UInt8 :=
  cs.flatMap String.utf8EncodeChar

/-- A character begun: how many bytes it still needs, the range of the next one, the bits
read so far and the number of bytes that carried them. -/
structure Begun where
  owed : Nat
  low : Nat
  high : Nat
  bits : Nat
  seen : Nat
  deriving DecidableEq, Repr

/-- A part of a byte string. -/
inductive Piece where
  | char (c : Char)
  | malformed (length : Nat)
  | truncated
  deriving DecidableEq, Repr

/-- The piece that a first byte completes, or the character that it begins. -/
def first (b : Nat) : Piece ⊕ Begun :=
  if b < 0x80 then .inl (.char (Char.ofNat b))
  else if b < 0xC2 then .inl (.malformed 1)
  else if b < 0xE0 then .inr ⟨1, 0x80, 0xBF, b - 0xC0, 1⟩
  else if b = 0xE0 then .inr ⟨2, 0xA0, 0xBF, 0, 1⟩
  else if b = 0xED then .inr ⟨2, 0x80, 0x9F, 0xD, 1⟩
  else if b < 0xF0 then .inr ⟨2, 0x80, 0xBF, b - 0xE0, 1⟩
  else if b = 0xF0 then .inr ⟨3, 0x90, 0xBF, 0, 1⟩
  else if b < 0xF4 then .inr ⟨3, 0x80, 0xBF, b - 0xF0, 1⟩
  else if b = 0xF4 then .inr ⟨3, 0x80, 0x8F, 4, 1⟩
  else .inl (.malformed 1)

/-- The pieces that byte `b` ends after the character begun, and the character begun then. -/
def step (begun : Option Begun) (b : Nat) : List Piece × Option Begun :=
  match begun with
  | none =>
    match first b with
    | .inl piece => ([piece], none)
    | .inr next => ([], some next)
  | some now =>
    if now.low ≤ b ∧ b ≤ now.high then
      let bits := now.bits * 64 + (b - 0x80)
      if now.owed = 1 then ([.char (Char.ofNat bits)], none)
      else ([], some ⟨now.owed - 1, 0x80, 0xBF, bits, now.seen + 1⟩)
    else
      match first b with
      | .inl piece => ([.malformed now.seen, piece], none)
      | .inr next => ([.malformed now.seen], some next)

/-- The pieces of a byte string that follows the character begun. -/
def piecesFrom : Option Begun → List UInt8 → List Piece
  | none, [] => []
  | some _, [] => [.truncated]
  | begun, b :: bs =>
    let (ended, next) := step begun b.toNat
    ended ++ piecesFrom next bs

/-- The characters and ill-formed parts of a byte string. -/
def pieces (bytes : List UInt8) : List Piece :=
  piecesFrom none bytes

/-- The first ill-formed part: the bytes before it, and its length unless the string ends
inside it. -/
structure Malformed where
  index : Nat
  length : Option Nat
  deriving DecidableEq, Repr

/-- The wording of an ill-formed byte string. -/
def Malformed.message (m : Malformed) : String :=
  match m.length with
  | some n => s!"invalid utf-8 sequence of {n} bytes from index {m.index}"
  | none => s!"incomplete utf-8 byte sequence from index {m.index}"

/-- The characters of the pieces, which start at byte `index`, when all are characters. -/
def collect : Nat → List Piece → Except Malformed (List Char)
  | _, [] => .ok []
  | index, .char c :: rest => (collect (index + c.utf8Size) rest).map (c :: ·)
  | index, .malformed n :: _ => .error ⟨index, some n⟩
  | index, .truncated :: _ => .error ⟨index, none⟩

/-- The text whose UTF-8 form the bytes are. -/
def decode (bytes : List UInt8) : Except Malformed (List Char) :=
  collect 0 (pieces bytes)

/-- The text of the bytes, with U+FFFD for each ill-formed part. -/
def decodeLossy (bytes : List UInt8) : List Char :=
  (pieces bytes).map fun
    | .char c => c
    | .malformed _ | .truncated => Char.ofNat 0xFFFD

end TypeAssertions.Text.Utf8
