import StreamAuth.Base64

/-!
# Payloads in base64

A text is decoded to a payload exactly if it is the encoding of the payload, folded or not (`decode_eq_ok_iff`). Each symbol is
read back as its value, and the values of a quad as the bytes that were cut into it, so the proofs go quad by quad in both
directions; only the last quad may be padded. What is written is made of symbols and padding alone (`isWritten_encode`), which
neither folding nor UTF-8 changes.
-/

namespace StreamAuth.Base64

/-! ## Symbols -/

/-- The bytes that an encoding is made of. -/
inductive IsWritten : UInt8 → Prop where
  | ofPad : IsWritten pad
  | ofValue {n : Nat} : n < 64 → IsWritten (symbol n)

theorem value?_symbol {n : Nat} (h : n < 64) : value? (symbol n) = some n := by
  have hall : ∀ n : Fin 64, value? (symbol n.val) = some n.val := by decide
  exact hall ⟨n, h⟩

theorem symbol_ne_pad {n : Nat} (h : n < 64) : symbol n ≠ pad := by
  intro he
  have hvalue := value?_symbol h
  rw [he] at hvalue
  cases hvalue

/-- What holds of the padding and of every symbol holds of all that an encoding is made of. -/
theorem IsWritten.of_all {b : UInt8} (h : IsWritten b) {p : UInt8 → Bool} (hpad : p pad = true)
    (hsymbols : ((List.range 64).all fun n => p (symbol n)) = true) : p b = true := by
  cases h with
  | ofPad => exact hpad
  | @ofValue n hn => exact List.all_eq_true.mp hsymbols n (List.mem_range.mpr hn)

/-- An encoding is made of symbols and padding. -/
theorem isWritten_encode (payload : Bytes) : ∀ b ∈ encode payload, IsWritten b := by
  induction payload using encode.induct with
  | case1 => nofun
  | case2 x =>
    have hx := x.toNat_lt
    simp only [encode, List.forall_mem_cons]
    exact ⟨.ofValue (by omega), .ofValue (by omega), .ofPad, .ofPad, nofun⟩
  | case3 x y =>
    have hx := x.toNat_lt
    have hy := y.toNat_lt
    simp only [encode, List.forall_mem_cons]
    exact ⟨.ofValue (by omega), .ofValue (by omega), .ofValue (by omega), .ofPad, nofun⟩
  | case4 x y z rest ih =>
    have hx := x.toNat_lt
    have hy := y.toNat_lt
    have hz := z.toNat_lt
    simp only [encode, List.forall_mem_cons]
    exact ⟨.ofValue (by omega), .ofValue (by omega), .ofValue (by omega), .ofValue (by omega), ih⟩

/-- An encoding consists of whole quads, one for each three bytes and one for what is left of them. -/
theorem length_encode (payload : Bytes) : (encode payload).length = 4 * ((payload.length + 2) / 3) := by
  induction payload using encode.induct with
  | case1 => rfl
  | case2 x => simp [encode]
  | case3 x y => simp [encode]
  | case4 x y z rest ih =>
    simp only [encode, List.length_cons, ih]
    omega

/-! ## Quads -/

theorem valueAt_symbol (offset : Nat) {n : Nat} (h : n < 64) : valueAt offset (symbol n) = .ok n := by
  simp only [valueAt, value?_symbol h]

/-- The last quad of a payload that has one byte more than whole quads hold. -/
theorem decodeLast_two (offset : Nat) {v w : Nat} (hv : v < 64) (hw : w < 64) :
    decodeLast offset [symbol v, symbol w, pad, pad] =
      if w % 16 = 0 then .ok ((joined v w 0 0).take 1) else .error (.invalidLastSymbol (offset + 1) (symbol w)) := by
  simp [decodeLast, symbol_ne_pad hv, symbol_ne_pad hw, valuesFrom, valueAt_symbol _ hv, valueAt_symbol _ hw, bind,
    Except.bind, pure, Except.pure]

/-- The last quad of a payload that has two bytes more than whole quads hold. -/
theorem decodeLast_three (offset : Nat) {v w x : Nat} (hv : v < 64) (hw : w < 64) (hx : x < 64) :
    decodeLast offset [symbol v, symbol w, symbol x, pad] =
      if x % 4 = 0 then .ok ((joined v w x 0).take 2) else .error (.invalidLastSymbol (offset + 2) (symbol x)) := by
  simp [decodeLast, symbol_ne_pad hv, symbol_ne_pad hw, symbol_ne_pad hx, valuesFrom, valueAt_symbol _ hv, valueAt_symbol _ hw,
    valueAt_symbol _ hx, bind, Except.bind, pure, Except.pure]

/-- The last quad of a payload that whole quads hold. -/
theorem decodeLast_four (offset : Nat) {v w x y : Nat} (hv : v < 64) (hw : w < 64) (hx : x < 64) (hy : y < 64) :
    decodeLast offset [symbol v, symbol w, symbol x, symbol y] = .ok (joined v w x y) := by
  simp [decodeLast, symbol_ne_pad hv, symbol_ne_pad hw, symbol_ne_pad hx, symbol_ne_pad hy, valuesFrom, valueAt_symbol _ hv,
    valueAt_symbol _ hw, valueAt_symbol _ hx, valueAt_symbol _ hy, bind, Except.bind, pure, Except.pure]

/-- A whole quad is decoded by itself, and what stands behind it after it. -/
theorem decodeFrom_quad (offset : Nat) {v w x y : Nat} (hv : v < 64) (hw : w < 64) (hx : x < 64) (hy : y < 64) (rest : Bytes) :
    decodeFrom offset (symbol v :: symbol w :: symbol x :: symbol y :: rest) =
      (joined v w x y ++ ·) <$> decodeFrom (offset + 4) rest := by
  cases rest with
  | nil => exact (decodeLast_four offset hv hw hx hy).trans (congrArg Except.ok (List.append_nil _).symm)
  | cons b rest =>
    simp only [decodeFrom, valueAt_symbol _ hv, valueAt_symbol _ hw, valueAt_symbol _ hx, valueAt_symbol _ hy, bind,
      Except.bind]
    rfl

/-! ## Payloads -/

/-- The bytes that were cut into the values of a quad. -/
theorem joined_values (a b c : UInt8) :
    joined (a.toNat / 4) (a.toNat % 4 * 16 + b.toNat / 16) (b.toNat % 16 * 4 + c.toNat / 64) (c.toNat % 64) = [a, b, c] := by
  have hb := b.toNat_lt
  have hc := c.toNat_lt
  have hfirst : a.toNat / 4 * 4 + (a.toNat % 4 * 16 + b.toNat / 16) / 16 = a.toNat := by omega
  have hsecond : (a.toNat % 4 * 16 + b.toNat / 16) % 16 * 16 + (b.toNat % 16 * 4 + c.toNat / 64) / 4 = b.toNat := by omega
  have hthird : (b.toNat % 16 * 4 + c.toNat / 64) % 4 * 64 + c.toNat % 64 = c.toNat := by omega
  rw [joined, hfirst, hsecond, hthird, UInt8.ofNat_toNat, UInt8.ofNat_toNat, UInt8.ofNat_toNat]

/-- An encoding is decoded quad by quad. -/
theorem decodeFrom_encode (payload : Bytes) (offset : Nat) : decodeFrom offset (encode payload) = .ok payload := by
  induction payload using encode.induct generalizing offset with
  | case1 => rfl
  | case2 a =>
    have ha := a.toNat_lt
    have hjoined : joined (a.toNat / 4) (a.toNat % 4 * 16) 0 0 = [a, 0, 0] := joined_values a 0 0
    refine (decodeLast_two offset (by omega) (by omega)).trans ((if_pos (by omega)).trans ?_)
    rw [hjoined]
    rfl
  | case3 a b =>
    have ha := a.toNat_lt
    have hb := b.toNat_lt
    have hjoined : joined (a.toNat / 4) (a.toNat % 4 * 16 + b.toNat / 16) (b.toNat % 16 * 4) 0 = [a, b, 0] :=
      joined_values a b 0
    refine (decodeLast_three offset (by omega) (by omega) (by omega)).trans ((if_pos (by omega)).trans ?_)
    rw [hjoined]
    rfl
  | case4 a b c rest ih =>
    have ha := a.toNat_lt
    have hb := b.toNat_lt
    have hc := c.toNat_lt
    rw [encode, decodeFrom_quad offset (by omega) (by omega) (by omega) (by omega), ih, joined_values]
    rfl

/-- An encoding has no blanks that fold it. -/
theorem filter_encode (payload : Bytes) : ((encode payload).filter fun b => !Text.isFold b) = encode payload :=
  List.filter_eq_self.mpr fun _ hb => (isWritten_encode payload _ hb).of_all (p := fun b => !Text.isFold b) rfl (by decide)

/-- No symbol stands alone at the end of whole quads. -/
theorem strayEnd?_of_quads {text : Bytes} (h : text.length % 4 = 0) : strayEnd? text = none := by
  unfold strayEnd?
  split
  · exact if_neg fun hs => by omega
  · rfl

/-! ## Texts that are decoded -/

/-- A byte that has a value is the symbol of the value. -/
theorem symbol_of_value? {b : UInt8} {v : Nat} (h : value? b = some v) : v < 64 ∧ symbol v = b := by
  have hall : ∀ n : Fin 256, ∀ v ∈ value? (UInt8.ofNat n.val), v < 64 ∧ symbol v = UInt8.ofNat n.val := by decide +kernel
  have hb := hall ⟨b.toNat, b.toNat_lt⟩ v
  rw [UInt8.ofNat_toNat] at hb
  exact hb h

theorem symbol_of_valueAt {offset : Nat} {b : UInt8} {v : Nat} (h : valueAt offset b = .ok v) : v < 64 ∧ symbol v = b := by
  unfold valueAt at h
  split at h
  · rename_i hv
    cases h
    exact symbol_of_value? hv
  · cases h

/-- Bytes that have values are the symbols of their values. -/
theorem symbols_of_valuesFrom {offset : Nat} {bytes : Bytes} {values : List Nat} (h : valuesFrom offset bytes = .ok values) :
    bytes = values.map symbol ∧ ∀ v ∈ values, v < 64 := by
  induction bytes generalizing offset values with
  | nil =>
    cases h
    exact ⟨rfl, nofun⟩
  | cons b rest ih =>
    simp only [valuesFrom, bind, Except.bind] at h
    cases hv : valueAt offset b with
    | error e => simp [hv] at h
    | ok v =>
      cases hvs : valuesFrom (offset + 1) rest with
      | error e => simp [hv, hvs] at h
      | ok vs =>
        simp only [hv, hvs, pure, Except.pure, Except.ok.injEq] at h
        obtain ⟨hlt, rfl⟩ := symbol_of_valueAt hv
        obtain ⟨rfl, hlts⟩ := ih hvs
        rw [← h]
        exact ⟨rfl, List.forall_mem_cons.mpr ⟨hlt, hlts⟩⟩

/-- The values of a quad are encoded to the quad. -/
theorem encode_joined {v w x y : Nat} (hv : v < 64) (hw : w < 64) (hx : x < 64) (hy : y < 64) (rest : Bytes) :
    encode (joined v w x y ++ rest) = symbol v :: symbol w :: symbol x :: symbol y :: encode rest := by
  have ha : (UInt8.ofNat (v * 4 + w / 16)).toNat = v * 4 + w / 16 := by rw [UInt8.toNat_ofNat']; omega
  have hb : (UInt8.ofNat (w % 16 * 16 + x / 4)).toNat = w % 16 * 16 + x / 4 := by rw [UInt8.toNat_ofNat']; omega
  have hc : (UInt8.ofNat (x % 4 * 64 + y)).toNat = x % 4 * 64 + y := by rw [UInt8.toNat_ofNat']; omega
  have h1 : (v * 4 + w / 16) / 4 = v := by omega
  have h2 : (v * 4 + w / 16) % 4 * 16 + (w % 16 * 16 + x / 4) / 16 = w := by omega
  have h3 : (w % 16 * 16 + x / 4) % 16 * 4 + (x % 4 * 64 + y) / 64 = x := by omega
  have h4 : (x % 4 * 64 + y) % 64 = y := by omega
  rw [joined, List.cons_append, List.cons_append, List.cons_append, List.nil_append, encode, ha, hb, hc, h1, h2, h3, h4]

theorem encode_joined_one {v w : Nat} (hv : v < 64) (hw : w < 64) (hzero : w % 16 = 0) :
    encode ((joined v w 0 0).take 1) = [symbol v, symbol w, pad, pad] := by
  have ha : (UInt8.ofNat (v * 4 + w / 16)).toNat = v * 4 + w / 16 := by rw [UInt8.toNat_ofNat']; omega
  have h1 : (v * 4 + w / 16) / 4 = v := by omega
  have h2 : (v * 4 + w / 16) % 4 * 16 = w := by omega
  rw [joined, List.take_succ_cons, List.take_zero, encode, ha, h1, h2]

theorem encode_joined_two {v w x : Nat} (hv : v < 64) (hw : w < 64) (hx : x < 64) (hzero : x % 4 = 0) :
    encode ((joined v w x 0).take 2) = [symbol v, symbol w, symbol x, pad] := by
  have ha : (UInt8.ofNat (v * 4 + w / 16)).toNat = v * 4 + w / 16 := by rw [UInt8.toNat_ofNat']; omega
  have hb : (UInt8.ofNat (w % 16 * 16 + x / 4)).toNat = w % 16 * 16 + x / 4 := by rw [UInt8.toNat_ofNat']; omega
  have h1 : (v * 4 + w / 16) / 4 = v := by omega
  have h2 : (v * 4 + w / 16) % 4 * 16 + (w % 16 * 16 + x / 4) / 16 = w := by omega
  have h3 : (w % 16 * 16 + x / 4) % 16 * 4 = x := by omega
  rw [joined, List.take_succ_cons, List.take_succ_cons, List.take_zero, encode, ha, hb, h1, h2, h3]

/-- A last quad that is decoded consists of symbols with padding behind them. Both together make up whole quads, and there are two
symbols, at least, if there is anything. -/
theorem exists_values_of_decodeLast {offset : Nat} {quad payload : Bytes} (h : decodeLast offset quad = .ok payload) :
    ∃ (values : List Nat) (pads : Nat), quad = values.map symbol ++ List.replicate pads pad ∧ (∀ v ∈ values, v < 64) ∧
      (values.length + pads) % 4 = 0 ∧ (quad ≠ [] → 2 ≤ values.length) := by
  have hquad : quad = quad.takeWhile (· != pad) ++ quad.dropWhile (· != pad) := List.takeWhile_append_dropWhile.symm
  simp only [decodeLast, bind, Except.bind] at h
  generalize quad.takeWhile (· != pad) = symbols at *
  generalize quad.dropWhile (· != pad) = padding at *
  cases hv : valuesFrom offset symbols with
  | error e => simp [hv] at h
  | ok values =>
    obtain ⟨hsymbols, hvalues⟩ := symbols_of_valuesFrom hv
    have hcount : symbols.length = values.length := by rw [hsymbols, List.length_map]
    simp only [hv] at h
    split at h
    · cases h
    rename_i hpadding
    split at h
    · cases h
    rename_i hshort
    split at h
    · cases h
    rename_i hwhole
    have hpads : padding = List.replicate padding.length pad := by
      refine List.eq_replicate_iff.mpr ⟨rfl, fun b hb => ?_⟩
      refine Classical.byContradiction fun hne => hpadding ⟨List.ne_nil_of_mem hb, Or.inr ?_⟩
      exact List.any_eq_true.mpr ⟨b, hb, bne_iff_ne.mpr hne⟩
    refine ⟨values, padding.length, by rw [← hsymbols, ← hpads, hquad], hvalues, ?_, fun hne => ?_⟩
    · rw [← hcount]
      exact Classical.not_not.mp hwhole
    · rw [← hcount]
      exact Nat.le_of_not_lt fun hlt => hshort ⟨hne, hlt⟩

/-- A last quad that is decoded is the encoding of what it is decoded to. -/
theorem eq_encode_of_decodeLast {offset : Nat} {quad payload : Bytes} (hlen : quad.length ≤ 4)
    (h : decodeLast offset quad = .ok payload) : quad = encode payload := by
  obtain ⟨values, pads, rfl, hvalues, hwhole, htwo⟩ := exists_values_of_decodeLast h
  rw [List.length_append, List.length_map, List.length_replicate] at hlen
  rcases values with _ | ⟨v, _ | ⟨w, _ | ⟨x, _ | ⟨y, _ | ⟨z, more⟩⟩⟩⟩⟩
  · have hnone : pads = 0 := Classical.byContradiction fun hpads => absurd (htwo (by simpa using hpads)) (by decide)
    subst hnone
    cases h
    rfl
  · exact absurd (htwo (List.cons_ne_nil _ _)) (Nat.not_succ_le_self 1)
  · obtain rfl : pads = 2 := by simp only [List.length_cons, List.length_nil] at hlen hwhole; omega
    obtain ⟨hv, hw⟩ : v < 64 ∧ w < 64 := by simpa using hvalues
    rw [show [v, w].map symbol ++ List.replicate 2 pad = [symbol v, symbol w, pad, pad] from rfl] at h ⊢
    rw [decodeLast_two offset hv hw] at h
    split at h
    · rename_i hzero
      cases h
      exact (encode_joined_one hv hw hzero).symm
    · cases h
  · obtain rfl : pads = 1 := by simp only [List.length_cons, List.length_nil] at hlen hwhole; omega
    obtain ⟨hv, hw, hx⟩ : v < 64 ∧ w < 64 ∧ x < 64 := by simpa using hvalues
    rw [show [v, w, x].map symbol ++ List.replicate 1 pad = [symbol v, symbol w, symbol x, pad] from rfl] at h ⊢
    rw [decodeLast_three offset hv hw hx] at h
    split at h
    · rename_i hzero
      cases h
      exact (encode_joined_two hv hw hx hzero).symm
    · cases h
  · obtain rfl : pads = 0 := by simp only [List.length_cons, List.length_nil] at hlen; omega
    obtain ⟨hv, hw, hx, hy⟩ : v < 64 ∧ w < 64 ∧ x < 64 ∧ y < 64 := by simpa using hvalues
    rw [show [v, w, x, y].map symbol ++ List.replicate 0 pad = [symbol v, symbol w, symbol x, symbol y] from rfl] at h ⊢
    rw [decodeLast_four offset hv hw hx hy] at h
    cases h
    have hencode := encode_joined hv hw hx hy []
    rw [List.append_nil] at hencode
    exact hencode.symm
  · simp only [List.length_cons] at hlen
    omega

/-- A text that is decoded is the encoding of what it is decoded to. -/
theorem eq_encode_of_decodeFrom {offset : Nat} {text payload : Bytes} (h : decodeFrom offset text = .ok payload) :
    text = encode payload := by
  induction offset, text using decodeFrom.induct generalizing payload with
  | case1 offset a b c d e rest ih =>
    simp only [decodeFrom, bind, Except.bind] at h
    cases ha : valueAt offset a with
    | error e => simp [ha] at h
    | ok v =>
    cases hb : valueAt (offset + 1) b with
    | error e => simp [ha, hb] at h
    | ok w =>
    cases hc : valueAt (offset + 2) c with
    | error e => simp [ha, hb, hc] at h
    | ok x =>
    cases hd : valueAt (offset + 3) d with
    | error e => simp [ha, hb, hc, hd] at h
    | ok y =>
    cases hr : decodeFrom (offset + 4) (e :: rest) with
    | error e => simp [ha, hb, hc, hd, hr] at h
    | ok later =>
      simp only [ha, hb, hc, hd, hr, pure, Except.pure, Except.ok.injEq] at h
      obtain ⟨hv, rfl⟩ := symbol_of_valueAt ha
      obtain ⟨hw, rfl⟩ := symbol_of_valueAt hb
      obtain ⟨hx, rfl⟩ := symbol_of_valueAt hc
      obtain ⟨hy, rfl⟩ := symbol_of_valueAt hd
      rw [← h, encode_joined hv hw hx hy, ← ih hr]
  | case2 offset quad hquad =>
    have hlen : quad.length ≤ 4 := by
      rcases quad with _ | ⟨a, _ | ⟨b, _ | ⟨c, _ | ⟨d, _ | ⟨e, rest⟩⟩⟩⟩⟩
      case cons.cons.cons.cons.cons => exact (hquad a b c d e rest rfl).elim
      all_goals simp
    rw [decodeFrom.eq_2 offset quad hquad] at h
    exact eq_encode_of_decodeLast hlen h

/-- Decoding accepts the folded encodings of a payload, and nothing else. -/
theorem decode_eq_ok_iff {text payload : Bytes} :
    decode text = .ok payload ↔ (text.filter fun b => !Text.isFold b) = encode payload := by
  constructor
  · intro h
    unfold decode at h
    simp only at h
    split at h
    · cases h
    · exact eq_encode_of_decodeFrom h
  · intro h
    have hstray : strayEnd? (encode payload) = none := strayEnd?_of_quads (by rw [length_encode]; omega)
    simp only [decode, h, hstray, decodeFrom_encode]

/-- A text that is decoded is made of symbols, padding and blanks that fold it. -/
theorem isFold_or_isWritten_of_decode {text payload : Bytes} (h : decode text = .ok payload) {b : UInt8} (hb : b ∈ text) :
    Text.isFold b ∨ IsWritten b := by
  by_cases hfold : Text.isFold b
  · exact Or.inl hfold
  · refine Or.inr (isWritten_encode payload b ?_)
    rw [← decode_eq_ok_iff.mp h]
    exact List.mem_filter.mpr ⟨hb, by simpa using hfold⟩

/-- A payload that is encoded is decoded to itself. -/
theorem decode_encode (payload : Bytes) : decode (encode payload) = .ok payload :=
  decode_eq_ok_iff.mpr (filter_encode payload)

/-! ## Payloads as text -/

/-- The characters of an encoding, one for each of its bytes. -/
theorem toList_encodeText (payload : Bytes) :
    (encodeText payload).toList = (encode payload).map fun b => Char.ofNat b.toNat := by
  rw [encodeText, String.toList_ofList]

/-- What holds of the characters of the padding and of every symbol holds of all characters of an encoding. -/
theorem forall_mem_encodeText {p : Char → Bool} (hpad : p (Char.ofNat pad.toNat) = true)
    (hsymbols : ((List.range 64).all fun n => p (Char.ofNat (symbol n).toNat)) = true) (payload : Bytes) :
    ∀ c ∈ (encodeText payload).toList, p c = true := by
  intro c hc
  rw [toList_encodeText] at hc
  obtain ⟨b, hb, rfl⟩ := List.mem_map.mp hc
  exact (isWritten_encode payload _ hb).of_all (p := fun b => p (Char.ofNat b.toNat)) hpad hsymbols

/-- An encoding takes one byte for each of its characters. -/
theorem ofString_encodeText (payload : Bytes) : Utf8.ofString (encodeText payload) = encode payload := by
  have hbyte : ∀ b ∈ encode payload, String.utf8EncodeChar (Char.ofNat b.toNat) = [b] := by
    intro b hb
    have hall := (isWritten_encode payload b hb).of_all (p := fun b => String.utf8EncodeChar (Char.ofNat b.toNat) == [b])
    exact beq_iff_eq.mp (hall (by decide) (by decide))
  calc Utf8.ofString (encodeText payload)
      = ((encode payload).map fun b => String.utf8EncodeChar (Char.ofNat b.toNat)).flatten := by
        rw [Utf8.ofString, toList_encodeText, Utf8.encode, List.flatMap_map, List.flatMap]
    _ = ((encode payload).map fun b => [b]).flatten := by rw [List.map_congr_left hbyte]
    _ = encode payload := List.flatMap_singleton' _

end StreamAuth.Base64
