import StreamAuth.Text.Utf8

/-!
# Characters and their bytes

A text that is written to bytes is read back as it was, and no other bytes are read as the text (`decode_eq_ok_iff`). The bytes
of one character are read as that character, whatever follows (`pieces_encodeChar`): its first byte settles how many are to
come, and each of those carries six bits of it. The bounds on the second byte leave one way to write each character, so what is
read as a character is what it is written with (`exists_char_of_start`).
-/

namespace StreamAuth.Utf8

/-! ## The bytes of a character -/

/-- The byte that carries the last six bits of a number behind the first byte of a character. -/
def continuation (n : Nat) : UInt8 :=
  UInt8.ofNat (n % 64 + 0x80)

theorem toNat_continuation (n : Nat) : (continuation n).toNat = n % 64 + 0x80 := by
  rw [continuation, UInt8.toNat_ofNat']
  omega

/-- The first byte of a character of two bytes. -/
theorem start_two {n : Nat} (hl : 0xC2 ≤ n) (hu : n ≤ 0xDF) :
    start (UInt8.ofNat n) = .inr ⟨n - 0xC0, 1, 0x80, 0xBF, 0⟩ := by
  have hn : (UInt8.ofNat n).toNat = n := by rw [UInt8.toNat_ofNat']; omega
  have h1 : ¬n ≤ 127 := by omega
  have h2 : ¬n < 194 := by omega
  simp only [start, UInt8.le_iff_toNat_le, UInt8.lt_iff_toNat_lt, ← UInt8.toNat_inj, hn, UInt8.toNat_ofNat, Nat.reducePow,
    Nat.reduceMod, if_neg h1, if_neg h2, if_pos hu]

/-- The first byte of a character of three bytes. -/
theorem start_three {n : Nat} (hl : 0xE0 ≤ n) (hu : n ≤ 0xEF) :
    ∃ low high : UInt8, start (UInt8.ofNat n) = .inr ⟨n - 0xE0, 1, low, high, 1⟩ ∧
      low.toNat = (if n = 0xE0 then 0xA0 else 0x80) ∧ high.toNat = (if n = 0xED then 0x9F else 0xBF) := by
  have hn : (UInt8.ofNat n).toNat = n := by rw [UInt8.toNat_ofNat']; omega
  have h1 : ¬n ≤ 127 := by omega
  have h2 : ¬n < 194 := by omega
  have h3 : ¬n ≤ 223 := by omega
  simp only [start, UInt8.le_iff_toNat_le, UInt8.lt_iff_toNat_lt, ← UInt8.toNat_inj, hn, UInt8.toNat_ofNat, Nat.reducePow,
    Nat.reduceMod, if_neg h1, if_neg h2, if_neg h3, if_pos hu]
  by_cases h4 : n = 224
  · subst h4
    exact ⟨0xA0, 0xBF, rfl, rfl, rfl⟩
  by_cases h5 : n = 237
  · subst h5
    exact ⟨0x80, 0x9F, rfl, rfl, rfl⟩
  · exact ⟨0x80, 0xBF, by rw [if_neg h4, if_neg h5], by rw [if_neg h4]; rfl, by rw [if_neg h5]; rfl⟩

/-- The first byte of a character of four bytes. -/
theorem start_four {n : Nat} (hl : 0xF0 ≤ n) (hu : n ≤ 0xF4) :
    ∃ low high : UInt8, start (UInt8.ofNat n) = .inr ⟨n - 0xF0, 1, low, high, 2⟩ ∧
      low.toNat = (if n = 0xF0 then 0x90 else 0x80) ∧ high.toNat = (if n = 0xF4 then 0x8F else 0xBF) := by
  have hn : (UInt8.ofNat n).toNat = n := by rw [UInt8.toNat_ofNat']; omega
  obtain rfl | rfl | rfl | rfl | rfl : n = 0xF0 ∨ n = 0xF1 ∨ n = 0xF2 ∨ n = 0xF3 ∨ n = 0xF4 := by omega
  · exact ⟨0x90, 0xBF, rfl, rfl, rfl⟩
  · exact ⟨0x80, 0xBF, rfl, rfl, rfl⟩
  · exact ⟨0x80, 0xBF, rfl, rfl, rfl⟩
  · exact ⟨0x80, 0xBF, rfl, rfl, rfl⟩
  · exact ⟨0x80, 0x8F, rfl, rfl, rfl⟩

/-! ## Reading them -/

/-- A continuation adds its six bits. -/
theorem extended_of_toNat {p : Partial} {b : UInt8} {n : Nat} (h : b.toNat = n % 64 + 0x80) :
    p.extended b = p.value * 64 + n % 64 := by
  unfold Partial.extended
  omega

/-- A continuation may come next if it is within the bounds. -/
theorem accepts_continuation {p : Partial} {n : Nat} (hl : p.low.toNat ≤ n % 64 + 0x80)
    (hh : n % 64 + 0x80 ≤ p.high.toNat) : p.accepts (continuation n) := by
  simp only [Partial.accepts, UInt8.le_iff_toNat_le, toNat_continuation, Bool.and_eq_true, decide_eq_true_eq]
  exact ⟨hl, hh⟩

/-- A continuation ends a character that waits for no further one. -/
theorem piecesFrom_last (value length n : Nat) (low high : UInt8) (hl : low.toNat ≤ n % 64 + 0x80)
    (hh : n % 64 + 0x80 ≤ high.toNat) (rest : Bytes) :
    piecesFrom (some ⟨value, length, low, high, 0⟩) (continuation n :: rest) =
      .char (Char.ofNat (value * 64 + n % 64)) :: piecesFrom none rest := by
  rw [piecesFrom, if_pos (accepts_continuation hl hh), if_pos rfl, extended_of_toNat (toNat_continuation n)]

/-- A continuation is followed by those that a character still waits for. -/
theorem piecesFrom_next (value length further n : Nat) (low high : UInt8) (hl : low.toNat ≤ n % 64 + 0x80)
    (hh : n % 64 + 0x80 ≤ high.toNat) (rest : Bytes) :
    piecesFrom (some ⟨value, length, low, high, further + 1⟩) (continuation n :: rest) =
      piecesFrom (some ⟨value * 64 + n % 64, length + 1, 0x80, 0xBF, further⟩) rest := by
  rw [piecesFrom, if_pos (accepts_continuation hl hh), if_neg (Nat.succ_ne_zero further), Partial.next,
    extended_of_toNat (toNat_continuation n)]
  rfl

/-- The bytes of a character are read as the character. -/
theorem pieces_encodeChar (c : Char) (rest : Bytes) :
    piecesFrom none (String.utf8EncodeChar c ++ rest) = .char c :: piecesFrom none rest := by
  have hc : Char.ofNat c.val.toNat = c := Char.ofNat_toNat c
  have hvalid : c.val.toNat < 0xD800 ∨ (0xDFFF < c.val.toNat ∧ c.val.toNat < 0x110000) := c.valid
  have hlow : (0x80 : UInt8).toNat = 0x80 := rfl
  have hhigh : (0xBF : UInt8).toNat = 0xBF := rfl
  unfold String.utf8EncodeChar
  generalize c.val.toNat = v at *
  rw [← hc]
  by_cases h1 : v ≤ 0x7F
  · have hv : (UInt8.ofNat v).toNat = v := by rw [UInt8.toNat_ofNat']; omega
    have hstart : start (UInt8.ofNat v) = .inl (.char (Char.ofNat v)) := by
      rw [start, if_pos (UInt8.le_iff_toNat_le.mpr (by rw [hv]; exact h1)), hv]
    simp only [if_pos h1, List.singleton_append, piecesFrom, hstart]
  by_cases h2 : v ≤ 0x7FF
  · have hstart := start_two (n := v / 64 % 32 + 192) (by omega) (by omega)
    have hvalue : v / 64 % 32 + 192 - 0xC0 = v / 64 := by omega
    have hlast := piecesFrom_last (v / 64) 1 v 0x80 0xBF (by omega) (by omega) rest
    rw [hvalue] at hstart
    rw [Nat.div_add_mod' v 64] at hlast
    simp only [if_neg h1, if_pos h2, List.cons_append, List.nil_append, piecesFrom, hstart]
    exact hlast
  by_cases h3 : v ≤ 0xFFFF
  · obtain ⟨low, high, hstart, hl, hh⟩ := start_three (n := v / 4096 % 16 + 224) (by omega) (by omega)
    have hvalue : v / 4096 % 16 + 224 - 0xE0 = v / 64 / 64 := by omega
    have hnext := piecesFrom_next (v / 64 / 64) 1 0 (v / 64) low high (by split at hl <;> omega) (by split at hh <;> omega)
      (continuation v :: rest)
    have hlast := piecesFrom_last (v / 64) 2 v 0x80 0xBF (by omega) (by omega) rest
    rw [hvalue] at hstart
    rw [Nat.div_add_mod' (v / 64) 64] at hnext
    rw [Nat.div_add_mod' v 64] at hlast
    simp only [if_neg h1, if_neg h2, if_pos h3, List.cons_append, List.nil_append, piecesFrom, hstart]
    exact hnext.trans hlast
  · obtain ⟨low, high, hstart, hl, hh⟩ := start_four (n := v / 262144 % 8 + 240) (by omega) (by omega)
    have hvalue : v / 262144 % 8 + 240 - 0xF0 = v / 64 / 64 / 64 := by omega
    have hnext : piecesFrom _ (continuation (v / 4096) :: _) = _ := piecesFrom_next (v / 64 / 64 / 64) 1 1 (v / 4096) low high
      (by split at hl <;> omega) (by split at hh <;> omega) (continuation (v / 64) :: continuation v :: rest)
    have hvalue' : v / 64 / 64 / 64 * 64 + v / 4096 % 64 = v / 64 / 64 := by omega
    have hnext' := piecesFrom_next (v / 64 / 64) 2 0 (v / 64) 0x80 0xBF (by omega) (by omega) (continuation v :: rest)
    have hlast := piecesFrom_last (v / 64) 3 v 0x80 0xBF (by omega) (by omega) rest
    rw [hvalue] at hstart
    rw [hvalue'] at hnext
    rw [Nat.div_add_mod' (v / 64) 64] at hnext'
    rw [Nat.div_add_mod' v 64] at hlast
    simp only [if_neg h1, if_neg h2, if_neg h3, List.cons_append, List.nil_append, piecesFrom, hstart]
    exact hnext.trans (hnext'.trans hlast)

/-- A byte below 128 stands for its own character, and in no other one. -/
theorem toNat_eq_of_mem_encodeChar {c : Char} {b : UInt8} (hb : b.toNat < 0x80) (h : b ∈ String.utf8EncodeChar c) :
    c.val.toNat = b.toNat := by
  have hc : c.val.toNat < 0x110000 := by
    rcases c.valid with hl | hu
    · exact Nat.lt_trans hl (by decide)
    · exact hu.2
  unfold String.utf8EncodeChar at h
  generalize c.val.toNat = v at *
  -- Only a character of one byte has no high bit in its bytes.
  have hbyte : ∀ n, 0x80 ≤ n → n < 0x100 → b ≠ UInt8.ofNat n := by
    rintro n hl hu rfl
    rw [UInt8.toNat_ofNat'] at hb
    omega
  by_cases h1 : v ≤ 0x7F
  · simp only [if_pos h1, List.mem_singleton] at h
    rw [h, UInt8.toNat_ofNat']
    omega
  exfalso
  by_cases h2 : v ≤ 0x7FF
  · simp only [if_neg h1, if_pos h2, List.mem_cons, List.not_mem_nil, or_false] at h
    rcases h with h | h <;> exact hbyte _ (by omega) (by omega) h
  by_cases h3 : v ≤ 0xFFFF
  · simp only [if_neg h1, if_neg h2, if_pos h3, List.mem_cons, List.not_mem_nil, or_false] at h
    rcases h with h | h | h <;> exact hbyte _ (by omega) (by omega) h
  · simp only [if_neg h1, if_neg h2, if_neg h3, List.mem_cons, List.not_mem_nil, or_false] at h
    rcases h with h | h | h | h <;> exact hbyte _ (by omega) (by omega) h

/-! ## Whole texts -/

/-- Characters are written one after the other. -/
theorem encode_append (cs ds : List Char) : encode (cs ++ ds) = encode cs ++ encode ds :=
  List.flatMap_append

/-- The byte of a less-than sign stands in a text exactly if the sign does. -/
theorem lt_mem_encode_iff {cs : List Char} : 60 ∈ encode cs ↔ '<' ∈ cs := by
  constructor
  · intro h
    obtain ⟨c, hc, hb⟩ := List.mem_flatMap.mp h
    have hval := toNat_eq_of_mem_encodeChar (by decide) hb
    have hchar : c = '<' := Char.ext (UInt32.toNat_inj.mp hval)
    exact hchar ▸ hc
  · intro h
    exact List.mem_flatMap.mpr ⟨'<', h, by decide⟩

/-- What is written is read as the characters that were written. -/
theorem pieces_encode (cs : List Char) : pieces (encode cs) = cs.map .char := by
  induction cs with
  | nil => rfl
  | cons c cs ih =>
    rw [encode, List.flatMap_cons, pieces, pieces_encodeChar, List.map_cons]
    exact congrArg (_ :: ·) ih

/-- Pieces that are characters have no fault. -/
theorem chars_map_char (cs : List Char) (offset : Nat) : Piece.chars offset (cs.map .char) = .ok cs := by
  induction cs generalizing offset with
  | nil => rfl
  | cons c cs ih => rw [List.map_cons, Piece.chars, ih]; rfl

/-- A run of characters that is written to bytes is read back. -/
theorem decode_encode (cs : List Char) : decode (encode cs) = .ok (String.ofList cs) := by
  rw [decode, pieces_encode, chars_map_char]
  rfl

/-- Lenient reading finds nothing to replace in it. -/
theorem decodeLossy_encode (cs : List Char) : decodeLossy (encode cs) = String.ofList cs := by
  rw [decodeLossy, pieces_encode, List.map_map]
  exact congrArg String.ofList (List.map_id cs)

/-! ## What is read as characters -/

/-- Pieces without a fault are characters. -/
theorem eq_map_char_of_chars {offset : Nat} {ps : List Piece} {cs : List Char} (h : Piece.chars offset ps = .ok cs) :
    ps = cs.map .char := by
  induction ps generalizing offset cs with
  | nil =>
    cases h
    rfl
  | cons p ps ih =>
    cases p with
    | char c =>
      rw [Piece.chars] at h
      cases hrest : Piece.chars (offset + c.utf8Size) ps with
      | error e =>
        rw [hrest] at h
        cases h
      | ok rest =>
        rw [hrest] at h
        cases h
        rw [List.map_cons, ih hrest]
    | invalid n => cases h
    | incomplete => cases h

theorem accepts_iff {p : Partial} {b : UInt8} : p.accepts b = true ↔ p.low.toNat ≤ b.toNat ∧ b.toNat ≤ p.high.toNat := by
  simp only [Partial.accepts, UInt8.le_iff_toNat_le, Bool.and_eq_true, decide_eq_true_eq]

section

variable {value length : Nat} {low high : UInt8} {bytes : Bytes} {cs : List Char}

/-- A character that waits for one more byte is read only if the byte comes. -/
theorem exists_last (h : piecesFrom (some ⟨value, length, low, high, 0⟩) bytes = cs.map .char) :
    ∃ b rest more, bytes = b :: rest ∧ (low.toNat ≤ b.toNat ∧ b.toNat ≤ high.toNat) ∧
      cs = Char.ofNat (value * 64 + (b.toNat - 0x80)) :: more ∧ piecesFrom none rest = more.map .char := by
  cases bytes with
  | nil => cases cs <;> cases h
  | cons b rest =>
    rw [piecesFrom] at h
    split at h
    · rename_i haccepts
      cases cs with
      | nil => cases h
      | cons c more =>
        obtain ⟨hc, hmore⟩ := List.cons.inj h
        have hchar : c = Char.ofNat (value * 64 + (b.toNat - 0x80)) := (Piece.char.inj hc).symm
        exact ⟨b, rest, more, rfl, accepts_iff.mp haccepts, congrArg (· :: more) hchar, hmore⟩
    · cases cs <;> cases h

/-- A character that waits for several bytes is read only if the first of them comes. -/
theorem exists_next {further : Nat} (h : piecesFrom (some ⟨value, length, low, high, further + 1⟩) bytes = cs.map .char) :
    ∃ b rest, bytes = b :: rest ∧ (low.toNat ≤ b.toNat ∧ b.toNat ≤ high.toNat) ∧
      piecesFrom (some ⟨value * 64 + (b.toNat - 0x80), length + 1, 0x80, 0xBF, further⟩) rest = cs.map .char := by
  cases bytes with
  | nil => cases cs <;> cases h
  | cons b rest =>
    rw [piecesFrom] at h
    split at h
    · rename_i haccepts
      exact ⟨b, rest, rfl, accepts_iff.mp haccepts, h⟩
    · cases cs <;> cases h

end

theorem toNat_val_ofNat {n : Nat} (h : n < 0xD800 ∨ (0xDFFF < n ∧ n < 0x110000)) : (Char.ofNat n).val.toNat = n := by
  have hvalid : n.isValidChar := h
  rw [Char.ofNat, dif_pos hvalid]
  rfl

theorem eq_of_toNat {b : UInt8} {n : Nat} (h : b.toNat = n) : UInt8.ofNat n = b := by
  rw [← h, UInt8.ofNat_toNat]

/-- The bytes of the character that one byte stands for. -/
theorem encodeChar_one {a : UInt8} (ha : a.toNat ≤ 0x7F) : String.utf8EncodeChar (Char.ofNat a.toNat) = [a] := by
  have hval := toNat_val_ofNat (n := a.toNat) (by omega)
  simp only [String.utf8EncodeChar, hval, if_pos ha, UInt8.ofNat_toNat]

/-- The bytes of the character that two bytes stand for. -/
theorem encodeChar_two {a b : UInt8} {n : Nat} (hn : n = (a.toNat - 0xC0) * 64 + (b.toNat - 0x80)) (ha : 0xC2 ≤ a.toNat)
    (ha' : a.toNat ≤ 0xDF) (hb : 0x80 ≤ b.toNat) (hb' : b.toNat ≤ 0xBF) : String.utf8EncodeChar (Char.ofNat n) = [a, b] := by
  have hval := toNat_val_ofNat (n := n) (by omega)
  have h1 : ¬n ≤ 0x7F := by omega
  have h2 : n ≤ 0x7FF := by omega
  have hfirst : UInt8.ofNat (n / 64 % 32 + 0xC0) = a := eq_of_toNat (by omega)
  have hsecond : UInt8.ofNat (n % 64 + 0x80) = b := eq_of_toNat (by omega)
  simp only [String.utf8EncodeChar, hval, if_neg h1, if_pos h2, hfirst, hsecond]

/-- The bytes of the character that three bytes stand for. -/
theorem encodeChar_three {a b c : UInt8} {n : Nat}
    (hn : n = ((a.toNat - 0xE0) * 64 + (b.toNat - 0x80)) * 64 + (c.toNat - 0x80)) (ha : 0xE0 ≤ a.toNat) (ha' : a.toNat ≤ 0xEF)
    (hb : (if a.toNat = 0xE0 then 0xA0 else 0x80) ≤ b.toNat) (hb' : b.toNat ≤ if a.toNat = 0xED then 0x9F else 0xBF)
    (hc : 0x80 ≤ c.toNat) (hc' : c.toNat ≤ 0xBF) : String.utf8EncodeChar (Char.ofNat n) = [a, b, c] := by
  have hbounds : 0x80 ≤ b.toNat ∧ b.toNat ≤ 0xBF ∧ (a.toNat = 0xE0 → 0xA0 ≤ b.toNat) ∧ (a.toNat = 0xED → b.toNat ≤ 0x9F) := by
    split at hb <;> split at hb' <;> omega
  have hval := toNat_val_ofNat (n := n) (by omega)
  have h1 : ¬n ≤ 0x7F := by omega
  have h2 : ¬n ≤ 0x7FF := by omega
  have h3 : n ≤ 0xFFFF := by omega
  have hfirst : UInt8.ofNat (n / 4096 % 16 + 0xE0) = a := eq_of_toNat (by omega)
  have hsecond : UInt8.ofNat (n / 64 % 64 + 0x80) = b := eq_of_toNat (by omega)
  have hthird : UInt8.ofNat (n % 64 + 0x80) = c := eq_of_toNat (by omega)
  simp only [String.utf8EncodeChar, hval, if_neg h1, if_neg h2, if_pos h3, hfirst, hsecond, hthird]

/-- The bytes of the character that four bytes stand for. -/
theorem encodeChar_four {a b c d : UInt8} {n : Nat}
    (hn : n = (((a.toNat - 0xF0) * 64 + (b.toNat - 0x80)) * 64 + (c.toNat - 0x80)) * 64 + (d.toNat - 0x80))
    (ha : 0xF0 ≤ a.toNat) (ha' : a.toNat ≤ 0xF4)
    (hb : (if a.toNat = 0xF0 then 0x90 else 0x80) ≤ b.toNat) (hb' : b.toNat ≤ if a.toNat = 0xF4 then 0x8F else 0xBF)
    (hc : 0x80 ≤ c.toNat) (hc' : c.toNat ≤ 0xBF) (hd : 0x80 ≤ d.toNat) (hd' : d.toNat ≤ 0xBF) :
    String.utf8EncodeChar (Char.ofNat n) = [a, b, c, d] := by
  have hbounds : 0x80 ≤ b.toNat ∧ b.toNat ≤ 0xBF ∧ (a.toNat = 0xF0 → 0x90 ≤ b.toNat) ∧ (a.toNat = 0xF4 → b.toNat ≤ 0x8F) := by
    split at hb <;> split at hb' <;> omega
  have hval := toNat_val_ofNat (n := n) (by omega)
  have h1 : ¬n ≤ 0x7F := by omega
  have h2 : ¬n ≤ 0x7FF := by omega
  have h3 : ¬n ≤ 0xFFFF := by omega
  have hfirst : UInt8.ofNat (n / 262144 % 8 + 0xF0) = a := eq_of_toNat (by omega)
  have hsecond : UInt8.ofNat (n / 4096 % 64 + 0x80) = b := eq_of_toNat (by omega)
  have hthird : UInt8.ofNat (n / 64 % 64 + 0x80) = c := eq_of_toNat (by omega)
  have hfourth : UInt8.ofNat (n % 64 + 0x80) = d := eq_of_toNat (by omega)
  simp only [String.utf8EncodeChar, hval, if_neg h1, if_neg h2, if_neg h3, hfirst, hsecond, hthird, hfourth]

/-- A first byte below 128 stands for a character by itself, and no other one does. -/
theorem start_eq_char {b : UInt8} {c : Char} (h : start b = .inl (.char c)) : String.utf8EncodeChar c = [b] := by
  unfold start at h
  split at h
  · rename_i hb
    cases h
    exact encodeChar_one (UInt8.le_iff_toNat_le.mp hb)
  · repeat' split at h
    all_goals cases h

/-- The bytes that begin a longer character, with what they settle of it. -/
theorem start_cases {b : UInt8} {p : Partial} (h : start b = .inr p) :
    (0xC2 ≤ b.toNat ∧ b.toNat ≤ 0xDF ∧ p = ⟨b.toNat - 0xC0, 1, 0x80, 0xBF, 0⟩) ∨
      (0xE0 ≤ b.toNat ∧ b.toNat ≤ 0xEF ∧ ∃ low high : UInt8, p = ⟨b.toNat - 0xE0, 1, low, high, 1⟩ ∧
        low.toNat = (if b.toNat = 0xE0 then 0xA0 else 0x80) ∧ high.toNat = (if b.toNat = 0xED then 0x9F else 0xBF)) ∨
      (0xF0 ≤ b.toNat ∧ b.toNat ≤ 0xF4 ∧ ∃ low high : UInt8, p = ⟨b.toNat - 0xF0, 1, low, high, 2⟩ ∧
        low.toNat = (if b.toNat = 0xF0 then 0x90 else 0x80) ∧ high.toNat = (if b.toNat = 0xF4 then 0x8F else 0xBF)) := by
  have hb : UInt8.ofNat b.toNat = b := UInt8.ofNat_toNat
  have hrange : 0xC2 ≤ b.toNat ∧ b.toNat ≤ 0xF4 := by
    have hall : ∀ n : Fin 256, (start (UInt8.ofNat n.val)).isRight = true → 0xC2 ≤ n.val ∧ n.val ≤ 0xF4 := by decide +kernel
    have hright := hall ⟨b.toNat, b.toNat_lt⟩
    rw [hb, h] at hright
    exact hright rfl
  by_cases h2 : b.toNat ≤ 0xDF
  · have hstart := start_two hrange.1 h2
    rw [hb, h] at hstart
    exact Or.inl ⟨hrange.1, h2, Sum.inr.inj hstart⟩
  by_cases h3 : b.toNat ≤ 0xEF
  · obtain ⟨low, high, hstart, hlow, hhigh⟩ := start_three (n := b.toNat) (by omega) h3
    rw [hb, h] at hstart
    exact Or.inr (Or.inl ⟨by omega, h3, low, high, Sum.inr.inj hstart, hlow, hhigh⟩)
  · obtain ⟨low, high, hstart, hlow, hhigh⟩ := start_four (n := b.toNat) (by omega) hrange.2
    rw [hb, h] at hstart
    exact Or.inr (Or.inr ⟨by omega, hrange.2, low, high, Sum.inr.inj hstart, hlow, hhigh⟩)

/-- A longer character is read from the bytes that it is written with. -/
theorem exists_char_of_start {b : UInt8} {p : Partial} (hstart : start b = .inr p) {bytes : Bytes} {cs : List Char}
    (h : piecesFrom (some p) bytes = cs.map .char) :
    ∃ c more rest, cs = c :: more ∧ b :: bytes = String.utf8EncodeChar c ++ rest ∧ piecesFrom none rest = more.map .char := by
  rcases start_cases hstart with ⟨hb, hb', rfl⟩ | ⟨hb, hb', low, high, rfl, hl, hh⟩ | ⟨hb, hb', low, high, rfl, hl, hh⟩
  · obtain ⟨b1, rest, more, rfl, h1, rfl, hrest⟩ := exists_last h
    have hbytes := encodeChar_two rfl hb hb' h1.1 h1.2
    exact ⟨_, more, rest, rfl, by rw [hbytes]; rfl, hrest⟩
  · obtain ⟨b1, bytes, rfl, h1, h⟩ := exists_next h
    obtain ⟨b2, rest, more, rfl, h2, rfl, hrest⟩ := exists_last h
    have hbytes := encodeChar_three rfl hb hb' (hl ▸ h1.1) (hh ▸ h1.2) h2.1 h2.2
    exact ⟨_, more, rest, rfl, by rw [hbytes]; rfl, hrest⟩
  · obtain ⟨b1, bytes, rfl, h1, h⟩ := exists_next h
    obtain ⟨b2, bytes, rfl, h2, h⟩ := exists_next h
    obtain ⟨b3, rest, more, rfl, h3, rfl, hrest⟩ := exists_last h
    have hbytes := encodeChar_four rfl hb hb' (hl ▸ h1.1) (hh ▸ h1.2) h2.1 h2.2 h3.1 h3.2
    exact ⟨_, more, rest, rfl, by rw [hbytes]; rfl, hrest⟩

/-- The first character that is read from bytes is at their front. -/
theorem exists_char_of_pieces {b : UInt8} {bytes : Bytes} {cs : List Char} (h : piecesFrom none (b :: bytes) = cs.map .char) :
    ∃ c more rest, cs = c :: more ∧ b :: bytes = String.utf8EncodeChar c ++ rest ∧ piecesFrom none rest = more.map .char := by
  rw [piecesFrom] at h
  cases hstart : start b with
  | inl piece =>
    simp only [hstart] at h
    cases cs with
    | nil => cases h
    | cons c more =>
      obtain ⟨rfl, hmore⟩ := List.cons.inj h
      exact ⟨c, more, bytes, rfl, by rw [start_eq_char hstart]; rfl, hmore⟩
  | inr p =>
    simp only [hstart] at h
    exact exists_char_of_start hstart h

/-- Bytes that are read as characters alone are the bytes of these. -/
theorem eq_encode_of_pieces {bytes : Bytes} {cs : List Char} (h : piecesFrom none bytes = cs.map .char) : bytes = encode cs := by
  induction cs generalizing bytes with
  | nil =>
    cases bytes with
    | nil => rfl
    | cons b bytes =>
      obtain ⟨c, more, rest, hcs, -⟩ := exists_char_of_pieces h
      cases hcs
  | cons c cs ih =>
    cases bytes with
    | nil => cases h
    | cons b bytes =>
      obtain ⟨c', more, rest, hcs, hbytes, hrest⟩ := exists_char_of_pieces h
      cases hcs
      rw [hbytes, ih hrest]
      rfl

/-- Exactly the bytes of a text are read as the text. -/
theorem decode_eq_ok_iff {bytes : Bytes} {s : String} : decode bytes = .ok s ↔ bytes = ofString s := by
  constructor
  · intro h
    rw [decode] at h
    cases hc : Piece.chars 0 (pieces bytes) with
    | error e =>
      rw [hc] at h
      cases h
    | ok cs =>
      rw [hc] at h
      cases h
      rw [ofString, String.toList_ofList]
      exact eq_encode_of_pieces (eq_map_char_of_chars hc)
  · rintro rfl
    rw [ofString, decode_encode, String.ofList_toList]

end StreamAuth.Utf8
