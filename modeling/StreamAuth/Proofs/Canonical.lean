import Mathlib.Algebra.Group.Nat.Defs
import StreamAuth.Proofs.Encoding

/-!
# Canonical texts

Of all texts without blanks, those that are decoded are of one form (`IsCanonical`): symbols, then padding up to whole quads,
and no bits in the last symbol that belong to no byte. An encoding is of this form (`isCanonical_encode`), and whatever is of
this form is the encoding of some payload (`exists_encode_eq`). So padding that is missing or out of place, surplus bits and
foreign bytes are all refused, and nothing else is.
-/

namespace StreamAuth.Base64

/-! ## The alphabet as text -/

/-- The characters of the standard alphabet, in the order of the values that they stand for. -/
def alphabet : String :=
  "ABCDEFGHIJKLMNOPQRSTUVWXYZabcdefghijklmnopqrstuvwxyz0123456789+/"

theorem map_symbol_range : (List.range 64).map symbol = Utf8.ofString alphabet := by
  decide +kernel

theorem symbol_mem_alphabet {n : Nat} (h : n < 64) : symbol n ∈ Utf8.ofString alphabet := by
  rw [← map_symbol_range]
  exact List.mem_map_of_mem (List.mem_range.mpr h)

/-! ## The form of an encoding -/

/-- A text made of symbols with padding behind them, up to whole quads. As many pads stand at its end as the last symbol has
pairs of bits that belong to no byte, and these bits are zero. -/
def IsCanonical (text : Bytes) : Prop :=
  ∃ (values : List Nat) (pads : Nat), text = values.map symbol ++ List.replicate pads pad ∧ (∀ v ∈ values, v < 64) ∧
    pads ≤ 2 ∧ (values.length + pads) % 4 = 0 ∧ ∀ v ∈ values.getLast?, v % 4 ^ pads = 0

/-- A whole quad in front of a canonical text. -/
theorem IsCanonical.quad {v w x y : Nat} (hv : v < 64) (hw : w < 64) (hx : x < 64) (hy : y < 64) {text : Bytes}
    (h : IsCanonical text) : IsCanonical (symbol v :: symbol w :: symbol x :: symbol y :: text) := by
  obtain ⟨values, pads, rfl, hvalues, hpads, hwhole, hzero⟩ := h
  have hquad : ∀ z ∈ v :: w :: x :: y :: values, z < 64 := by
    simp only [List.forall_mem_cons]
    exact ⟨hv, hw, hx, hy, hvalues⟩
  refine ⟨v :: w :: x :: y :: values, pads, rfl, hquad, hpads, by simp only [List.length_cons]; omega, fun z hz => ?_⟩
  cases values with
  | nil =>
    obtain rfl : pads = 0 := by simp only [List.length_nil] at hwhole; omega
    rw [Nat.pow_zero, Nat.mod_one]
  | cons first values =>
    refine hzero z ?_
    rwa [List.getLast?_cons_cons, List.getLast?_cons_cons, List.getLast?_cons_cons, List.getLast?_cons_cons] at hz

/-- An encoding is canonical. -/
theorem isCanonical_encode (payload : Bytes) : IsCanonical (encode payload) := by
  induction payload using encode.induct with
  | case1 => exact ⟨[], 0, rfl, List.forall_mem_nil _, by decide, rfl, by simp⟩
  | case2 a =>
    have ha := a.toNat_lt
    refine ⟨[a.toNat / 4, a.toNat % 4 * 16], 2, rfl, ?_, by decide, by simp, ?_⟩
    · simp only [List.forall_mem_cons]
      exact ⟨by omega, by omega, List.forall_mem_nil _⟩
    · rintro _ ⟨⟩
      exact Nat.mul_mod_left (a.toNat % 4) 16
  | case3 a b =>
    have ha := a.toNat_lt
    have hb := b.toNat_lt
    refine ⟨[a.toNat / 4, a.toNat % 4 * 16 + b.toNat / 16, b.toNat % 16 * 4], 1, rfl, ?_, by decide, by simp, ?_⟩
    · simp only [List.forall_mem_cons]
      exact ⟨by omega, by omega, by omega, List.forall_mem_nil _⟩
    · rintro _ ⟨⟩
      exact Nat.mul_mod_left (b.toNat % 16) 4
  | case4 a b c rest ih =>
    have ha := a.toNat_lt
    have hb := b.toNat_lt
    have hc := c.toNat_lt
    exact ih.quad (by omega) (by omega) (by omega) (by omega)

/-- Symbols and padding in canonical form are the encoding of some payload. -/
theorem exists_encode_eq : ∀ (values : List Nat) {pads : Nat}, (∀ v ∈ values, v < 64) → pads ≤ 2 →
    (values.length + pads) % 4 = 0 → (∀ v ∈ values.getLast?, v % 4 ^ pads = 0) →
    ∃ payload, values.map symbol ++ List.replicate pads pad = encode payload
  | [], pads, _, hpads, hwhole, _ => by
    obtain rfl : pads = 0 := by simp only [List.length_nil] at hwhole; omega
    exact ⟨[], rfl⟩
  | [v], pads, _, hpads, hwhole, _ => by
    simp only [List.length_cons, List.length_nil] at hwhole
    omega
  | [v, w], pads, hvalues, hpads, hwhole, hzero => by
    obtain rfl : pads = 2 := by simp only [List.length_cons, List.length_nil] at hwhole; omega
    obtain ⟨hv, hw⟩ : v < 64 ∧ w < 64 := by simpa using hvalues
    exact ⟨_, (encode_joined_one hv hw (hzero w rfl)).symm⟩
  | [v, w, x], pads, hvalues, hpads, hwhole, hzero => by
    obtain rfl : pads = 1 := by simp only [List.length_cons, List.length_nil] at hwhole; omega
    obtain ⟨hv, hw, hx⟩ : v < 64 ∧ w < 64 ∧ x < 64 := by simpa using hvalues
    exact ⟨_, (encode_joined_two hv hw hx (hzero x rfl)).symm⟩
  | v :: w :: x :: y :: values, pads, hvalues, hpads, hwhole, hzero => by
    simp only [List.forall_mem_cons] at hvalues
    obtain ⟨hv, hw, hx, hy, hvalues⟩ := hvalues
    have hlast : ∀ z ∈ values.getLast?, z % 4 ^ pads = 0 := by
      intro z hz
      refine hzero z ?_
      obtain ⟨front, rfl⟩ := List.getLast?_eq_some_iff.mp hz
      rw [← List.cons_append, ← List.cons_append, ← List.cons_append, ← List.cons_append, List.getLast?_concat]
      rfl
    obtain ⟨payload, hpayload⟩ := exists_encode_eq values hvalues hpads (by simp only [List.length_cons] at hwhole; omega) hlast
    refine ⟨joined v w x y ++ payload, ?_⟩
    rw [encode_joined hv hw hx hy, ← hpayload]
    rfl

/-- The canonical texts are the encodings. -/
theorem isCanonical_iff {text : Bytes} : IsCanonical text ↔ ∃ payload, text = encode payload := by
  constructor
  · rintro ⟨values, pads, rfl, hvalues, hpads, hwhole, hzero⟩
    exact exists_encode_eq values hvalues hpads hwhole hzero
  · rintro ⟨payload, rfl⟩
    exact isCanonical_encode payload

/-! ## What is decoded -/

/-- A payload can be read off its encoding. -/
theorem encode_injective : Function.Injective encode := by
  intro payload other h
  have hdecode := decode_encode payload
  rw [h, decode_encode] at hdecode
  exact (Except.ok.inj hdecode).symm

/-- A text is refused unless it is canonical once the blanks that fold it are dropped. -/
theorem exists_error_iff {text : Bytes} :
    (∃ e, decode text = .error e) ↔ ¬IsCanonical (text.filter fun b => !Text.isFold b) := by
  rw [isCanonical_iff]
  constructor
  · rintro ⟨e, he⟩ ⟨payload, hpayload⟩
    rw [decode_eq_ok_iff.mpr hpayload] at he
    cases he
  · intro h
    cases hd : decode text with
    | error e => exact ⟨e, rfl⟩
    | ok payload => exact (h ⟨payload, decode_eq_ok_iff.mp hd⟩).elim

/-- Texts and payloads, in five parts. For every text and every payload:
1. The text is decoded to the payload exactly if it is the encoding of the payload once the blanks that fold it are dropped.
2. The encoding is made of characters of the alphabet with padding behind them, one pad or two or none, and as text it takes
   the same bytes.
3. It has four characters for each three bytes of the payload and for what is left of them.
4. No other payload has this encoding.
5. The text is refused exactly if, without those blanks, it is not canonical. -/
theorem payload_of_text (text payload : Bytes) :
    (decode text = .ok payload ↔ (text.filter fun b => !Text.isFold b) = encode payload) ∧
      ((∃ symbols pads, encode payload = symbols ++ List.replicate pads pad ∧ pads ≤ 2 ∧
          ∀ b ∈ symbols, b ∈ Utf8.ofString alphabet) ∧ Utf8.ofString (encodeText payload) = encode payload) ∧
      (encode payload).length = 4 * ((payload.length + 2) / 3) ∧
      (∀ other, encode other = encode payload ↔ other = payload) ∧
      ((∃ e, decode text = .error e) ↔ ¬IsCanonical (text.filter fun b => !Text.isFold b)) := by
  have hform : ∃ symbols pads, encode payload = symbols ++ List.replicate pads pad ∧ pads ≤ 2 ∧
      ∀ b ∈ symbols, b ∈ Utf8.ofString alphabet := by
    obtain ⟨values, pads, hencode, hvalues, hpads, -⟩ := isCanonical_encode payload
    refine ⟨values.map symbol, pads, hencode, hpads, fun b hb => ?_⟩
    obtain ⟨v, hv, rfl⟩ := List.mem_map.mp hb
    exact symbol_mem_alphabet (hvalues v hv)
  exact ⟨decode_eq_ok_iff, ⟨hform, ofString_encodeText payload⟩, length_encode payload,
    fun _ => encode_injective.eq_iff, exists_error_iff⟩

end StreamAuth.Base64
