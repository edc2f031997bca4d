import StreamAuth.Proofs.Framing

/-!
# Taking spans out of a buffer

Spans of one kind are taken out of a buffer until none is left (`extractAll`), at once or after each piece in which the bytes
arrive (`extractPieces`). A span that can be taken is still the first one when more bytes have arrived, so what is left over from
one piece and the piece behind it are as good as the whole: the pieces do not matter (`extraction_of_pieces`).
-/

namespace StreamAuth.ReceiveBuffer

variable {d : Delimiters} {b rest : ReceiveBuffer} {span : Bytes}

/-! ## One span -/

/-- A span is taken out exactly where the delimiters have a frame. -/
theorem extract_eq_some_iff :
    b.extract d = (some span, rest) ↔ ∃ dropped, d.frame? b.bytes = some ⟨dropped, span, rest.bytes⟩ := by
  unfold extract
  cases hf : d.frame? b.bytes with
  | none => simp
  | some f =>
    constructor
    · intro h
      cases h
      exact ⟨f.dropped, rfl⟩
    · rintro ⟨dropped, h⟩
      cases h
      rfl

/-- No span is taken out exactly where the delimiters have no frame, and then the buffer stays as it is. -/
theorem extract_eq_none_iff : b.extract d = (none, rest) ↔ d.frame? b.bytes = none ∧ rest = b := by
  unfold extract
  cases hf : d.frame? b.bytes with
  | none => simp [eq_comm]
  | some f => simp

/-- Two delimiters, at least, leave the buffer with a span. -/
theorem length_of_extract (h : b.extract d = (some span, rest)) :
    rest.length + d.opening.length + d.closing.length ≤ b.length := by
  obtain ⟨dropped, hf⟩ := extract_eq_some_iff.mp h
  obtain ⟨_, _, hb, content, hs⟩ := Delimiters.eq_of_frame? hf
  simp only at hb hs
  simp only [length, hb, hs, List.length_append]
  omega

theorem length_lt_of_extract (h : b.extract d = (some span, rest)) : rest.length < b.length := by
  obtain ⟨dropped, hf⟩ := extract_eq_some_iff.mp h
  exact Delimiters.length_rest_lt hf

/-- More bytes at the end do not change which span is taken out, and stay behind it. -/
theorem extract_append (more : Bytes) (h : b.extract d = (some span, rest)) :
    (b.append more).extract d = (some span, rest.append more) := by
  obtain ⟨dropped, hf⟩ := extract_eq_some_iff.mp h
  exact extract_eq_some_iff.mpr ⟨dropped, Delimiters.frame?_append more hf⟩

/-! ## All spans -/

/-- Takes spans out until none is left: the spans in order, and the buffer after them. -/
def extractAll (d : Delimiters) (b : ReceiveBuffer) : List Bytes × ReceiveBuffer :=
  match _h : b.extract d with
  | (none, rest) => ([], rest)
  | (some span, rest) =>
    let later := extractAll d rest
    (span :: later.1, later.2)
termination_by b.length
decreasing_by exact length_lt_of_extract _h

/-- Takes spans out until none is left after each piece that arrives: all spans in order, and the buffer after them. -/
def extractPieces (d : Delimiters) (b : ReceiveBuffer) : List Bytes → List Bytes × ReceiveBuffer
  | [] => ([], b)
  | piece :: pieces =>
    let now := extractAll d (b.append piece)
    let later := extractPieces d now.2 pieces
    (now.1 ++ later.1, later.2)

theorem extractAll_of_none (h : b.extract d = (none, rest)) : extractAll d b = ([], b) := by
  have hb := (extract_eq_none_iff.mp h).2
  rw [extractAll]
  split
  · rename_i hn
    cases h.symm.trans hn
    rw [hb]
  · rename_i hs
    cases h.symm.trans hs

theorem extractAll_of_some (h : b.extract d = (some span, rest)) :
    extractAll d b = (span :: (extractAll d rest).1, (extractAll d rest).2) := by
  rw [extractAll]
  split
  · rename_i hn
    cases h.symm.trans hn
  · rename_i hs
    cases h.symm.trans hs
    rfl

/-- Nothing can be taken out of the buffer that is left. -/
theorem extract_extractAll (d : Delimiters) (b : ReceiveBuffer) :
    (extractAll d b).2.extract d = (none, (extractAll d b).2) := by
  induction b using extractAll.induct d with
  | case1 b rest h =>
    obtain ⟨_, rfl⟩ := extract_eq_none_iff.mp h
    rw [extractAll_of_none h]
    exact h
  | case2 b span rest h ih =>
    rw [extractAll_of_some h]
    exact ih

/-- With more bytes, the spans that could be taken before come first, and what they left is taken up with the bytes. -/
theorem extractAll_append (d : Delimiters) (b : ReceiveBuffer) (more : Bytes) :
    extractAll d (b.append more) =
      ((extractAll d b).1 ++ (extractAll d ((extractAll d b).2.append more)).1,
        (extractAll d ((extractAll d b).2.append more)).2) := by
  induction b using extractAll.induct d with
  | case1 b rest h =>
    rw [extractAll_of_none h]
    rfl
  | case2 b span rest h ih =>
    rw [extractAll_of_some h, extractAll_of_some (extract_append more h), ih]
    rfl

/-- From a buffer that nothing can be taken out of, the pieces in which more bytes arrive do not matter. -/
theorem extractPieces_eq_extractAll (pieces : List Bytes) (h : b.extract d = (none, b)) :
    extractPieces d b pieces = extractAll d (b.append pieces.flatten) := by
  induction pieces generalizing b with
  | nil =>
    have hb : b.append [].flatten = b := by simp [append]
    rw [hb, extractAll_of_none h, extractPieces]
  | cons piece pieces ih =>
    have hb : b.append (piece :: pieces).flatten = (b.append piece).append pieces.flatten := by simp [append]
    rw [hb, extractAll_append, extractPieces, ih (extract_extractAll d (b.append piece))]

/-- Taking spans out of a stream as it arrives. For all delimiters and all pieces:
1. Spans that are taken out until none is left after each piece are, in order, the spans that are taken out of the whole, and the
   same bytes are left over.
2. Where taking out ends, nothing can be taken out, and the attempt leaves the buffer as it is. -/
theorem extraction_of_pieces (d : Delimiters) (pieces : List Bytes) :
    extractPieces d .empty pieces = extractAll d (empty.append pieces.flatten) ∧
      ∀ b : ReceiveBuffer, (extractAll d b).2.extract d = (none, (extractAll d b).2) :=
  ⟨extractPieces_eq_extractAll pieces rfl, fun b => extract_extractAll d b⟩

end StreamAuth.ReceiveBuffer
