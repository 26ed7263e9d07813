import Mathlib.Tactic.Use
import TypeAssertions.FileTree

/-!
# The UTF-8 form of a text

Each character of a text is one piece of its UTF-8 form (`Utf8.pieces_encode`), so that the text is
read back from it (`Utf8.decode_encode`).
-/

namespace TypeAssertions

namespace Text.Utf8

variable {bits seen low high n : Nat} {bs : List UInt8}

/-! ### Bytes of a character -/

theorem toNat_ofNat (h : n < 256) :
  (UInt8.ofNat n).toNat = n
  := by
  rw [UInt8.toNat_ofNat', Nat.mod_eq_of_lt h]

/-- A first byte begins a character. -/
theorem piecesFrom_first {now : Begun} (small : n < 256) (begins : first n = .inr now) :
  piecesFrom none (UInt8.ofNat n :: bs) = piecesFrom (some now) bs
  := by
  rw [piecesFrom, toNat_ofNat small]
  simp only [step, begins, List.nil_append]

/-- The last byte of a character completes it. -/
theorem piecesFrom_last (small : n < 64) (above : low ≤ n + 0x80) (below : n + 0x80 ≤ high) :
  piecesFrom (some ⟨1, low, high, bits, seen⟩) (UInt8.ofNat (n + 0x80) :: bs)
    = .char (Char.ofNat (bits * 64 + n)) :: piecesFrom none bs
  := by
  rw [piecesFrom, toNat_ofNat (by omega)]
  simp only [step, above, below, and_self, if_true, Nat.add_sub_cancel, List.singleton_append]

/-- Any other byte after the first one goes on with it. -/
theorem piecesFrom_more {owed : Nat} (small : n < 64) (above : low ≤ n + 0x80)
    (below : n + 0x80 ≤ high) :
  piecesFrom (some ⟨owed + 2, low, high, bits, seen⟩) (UInt8.ofNat (n + 0x80) :: bs)
    = piecesFrom (some ⟨owed + 1, 0x80, 0xBF, bits * 64 + n, seen + 1⟩) bs
  := by
  have further : ¬ owed + 2 = 1 := by omega
  rw [piecesFrom, toNat_ofNat (by omega)]
  simp only [step, above, below, and_self, if_true, further, if_false, Nat.add_sub_cancel,
    List.nil_append]
  rfl

theorem first_of_two (h : 0x80 ≤ n) (h' : n ≤ 0x7FF) :
  first (n / 64 % 0x20 + 0xC0) = .inr ⟨1, 0x80, 0xBF, n / 64, 1⟩
  := by
  have bits : n / 64 % 0x20 + 0xC0 - 0xC0 = n / 64 := by omega
  rw [first, if_neg (by omega), if_neg (by omega), if_pos (by omega), bits]

/-- The second of three bytes is in the range that the first one leaves to it, which leaves out what
fewer bytes would do for and the surrogates. -/
theorem exists_first_of_three (h : 0x800 ≤ n) (h' : n ≤ 0xFFFF) (valid : n.isValidChar) :
  ∃ low high, first (n / 4096 % 0x10 + 0xE0) = .inr ⟨2, low, high, n / 4096, 1⟩
    ∧ low ≤ n / 64 % 0x40 + 0x80 ∧ n / 64 % 0x40 + 0x80 ≤ high
  := by
  have bits : n / 4096 % 0x10 + 0xE0 - 0xE0 = n / 4096 := by omega
  rw [Nat.isValidChar] at valid
  rw [first, if_neg (by omega), if_neg (by omega), if_neg (by omega)]
  by_cases least : n / 4096 = 0
  · use 0xA0, 0xBF
    rw [least, if_pos rfl]
    use rfl
    omega
  rw [if_neg (by omega)]
  by_cases surrogates : n / 4096 = 0xD
  · use 0x80, 0x9F
    rw [surrogates, if_pos rfl]
    use rfl
    omega
  rw [if_neg (by omega), if_pos (by omega), bits]
  use 0x80, 0xBF, rfl
  omega

/-- The second of four bytes is in the range that the first one leaves to it, which leaves out what
fewer bytes would do for and what is no character. -/
theorem exists_first_of_four (h : 0xFFFF < n) (valid : n.isValidChar) :
  ∃ low high, first (n / 262144 % 0x08 + 0xF0) = .inr ⟨3, low, high, n / 262144, 1⟩
    ∧ low ≤ n / 4096 % 0x40 + 0x80 ∧ n / 4096 % 0x40 + 0x80 ≤ high
  := by
  have bits : n / 262144 % 0x08 + 0xF0 - 0xF0 = n / 262144 := by omega
  rw [Nat.isValidChar] at valid
  rw [first, if_neg (by omega), if_neg (by omega), if_neg (by omega), if_neg (by omega),
    if_neg (by omega), if_neg (by omega)]
  by_cases least : n / 262144 = 0
  · use 0x90, 0xBF
    rw [least, if_pos rfl]
    use rfl
    omega
  rw [if_neg (by omega)]
  by_cases inner : n / 262144 < 4
  · rw [if_pos (by omega), bits]
    use 0x80, 0xBF, rfl
    omega
  · have greatest : n / 262144 = 4 := by omega
    use 0x80, 0x8F
    rw [greatest, if_neg (by omega), if_pos rfl]
    use rfl
    omega

/-! ### Texts -/

/-- The bytes of a character are one piece. -/
theorem piecesFrom_encodeChar (c : Char) (bs : List UInt8) :
  piecesFrom none (String.utf8EncodeChar c ++ bs) = .char c :: piecesFrom none bs
  := by
  have valid : c.toNat.isValidChar := c.valid
  have whole (n : Nat) (h : n = c.toNat) : Char.ofNat n = c := by rw [h, Char.ofNat_toNat]
  have most : c.toNat < 0x110000 := by
    rw [Nat.isValidChar] at valid
    omega
  have value : c.val.toNat = c.toNat := rfl
  simp only [String.utf8EncodeChar, value]
  generalize c.toNat = n at *
  split
  · have small : n < 0x80 := by omega
    have single : first n = .inl (.char (Char.ofNat n)) := if_pos small
    rw [List.singleton_append, piecesFrom, toNat_ofNat (by omega)]
    simp only [step, single, whole n rfl, List.singleton_append]
  split
  · rw [List.cons_append, List.singleton_append,
      piecesFrom_first (by omega) (first_of_two (by omega) (by omega)),
      piecesFrom_last (by omega) (by omega) (by omega), whole _ (by omega)]
  split
  · obtain ⟨low, high, begins, above, below⟩ :=
      exists_first_of_three (by omega) (by omega) valid
    rw [List.cons_append, List.cons_append, List.singleton_append,
      piecesFrom_first (by omega) begins, piecesFrom_more (by omega) above below,
      piecesFrom_last (by omega) (by omega) (by omega), whole _ (by omega)]
  · obtain ⟨low, high, begins, above, below⟩ := exists_first_of_four (by omega) valid
    rw [List.cons_append, List.cons_append, List.cons_append, List.singleton_append,
      piecesFrom_first (by omega) begins, piecesFrom_more (by omega) above below,
      piecesFrom_more (by omega) (by omega) (by omega),
      piecesFrom_last (by omega) (by omega) (by omega), whole _ (by omega)]

theorem pieces_encode (cs : List Char) :
  pieces (encode cs) = cs.map .char
  := by
  rw [pieces, encode]
  induction cs with
  | nil => rfl
  | cons c cs ih => rw [List.flatMap_cons, piecesFrom_encodeChar, ih, List.map_cons]

theorem collect_map_char (index : Nat) (cs : List Char) :
  collect index (cs.map .char) = .ok cs
  := by
  induction cs generalizing index with
  | nil => rfl
  | cons c cs ih =>
    rw [List.map_cons, collect, ih]
    rfl

/-- A text is read back from its UTF-8 form. -/
theorem decode_encode (cs : List Char) :
  decode (encode cs) = .ok cs
  := by
  rw [decode, pieces_encode, collect_map_char]

end Text.Utf8

/-- A file that holds the UTF-8 form of a text has this text. -/
theorem FileTree.readText_of_encode {t : FileTree} {p : Path} {d : List String} {cs : List Char}
    (located : t.locate p = .ok d) (file : t.entryAt? d = some (.file (Text.Utf8.encode cs))) :
  t.readText p = .ok cs
  := by
  simp only [readText, readBytes, located, bind, Except.bind, file, pure, Except.pure,
    Text.Utf8.decode_encode]

end TypeAssertions
