import StreamAuth.Proofs.Extraction

/-!
# Search by offsets

A buffer that is searched where it lies, without copies, is searched with offsets into it. Here that search is written out with
every sum, every difference and every cut checked against the bytes at hand, so that it fails where one of them leaves its range.
None ever does, whatever the bytes and the delimiters are, and what is found is what `extract` and `spanStart?` give
(`Offsets.extract_eq`, `Offsets.spanStart_eq`). With it comes the exact condition for a span, by occurrences alone.
-/

namespace StreamAuth

/-! ## Occurrences by offset -/

/-- The needle stands in the bytes at an offset. -/
def StandsAt (needle bytes : Bytes) (i : Nat) : Prop :=
  needle <+: bytes.drop i

/-- The first offset, from `start` on, at which the needle stands. -/
def FirstFrom (needle bytes : Bytes) (start i : Nat) : Prop :=
  start ≤ i ∧ StandsAt needle bytes i ∧ ∀ j < i, start ≤ j → ¬StandsAt needle bytes j

instance (needle bytes : Bytes) (i : Nat) : Decidable (StandsAt needle bytes i) :=
  inferInstanceAs (Decidable (_ <+: _))

instance (needle bytes : Bytes) (start i : Nat) : Decidable (FirstFrom needle bytes start i) :=
  inferInstanceAs (Decidable (_ ∧ _ ∧ _))

/-- An offset into what is left of some bytes, counted in the bytes themselves. -/
theorem standsAt_drop {needle bytes : Bytes} {start i : Nat} :
    StandsAt needle (bytes.drop start) i ↔ StandsAt needle bytes (i + start) := by
  rw [StandsAt, StandsAt, List.drop_drop, Nat.add_comm]

theorem firstFrom_drop {needle bytes : Bytes} {start i : Nat} :
    FirstFrom needle (bytes.drop start) 0 i ↔ FirstFrom needle bytes start (i + start) := by
  constructor
  · rintro ⟨_, hat, hfirst⟩
    refine ⟨Nat.le_add_left _ _, standsAt_drop.mp hat, fun j hj hstart h => ?_⟩
    refine hfirst (j - start) (by omega) (Nat.zero_le _) (standsAt_drop.mpr ?_)
    rwa [Nat.sub_add_cancel hstart]
  · rintro ⟨_, hat, hfirst⟩
    refine ⟨Nat.zero_le _, standsAt_drop.mpr hat, fun j hj _ h => ?_⟩
    exact hfirst (j + start) (by omega) (Nat.le_add_left _ _) (standsAt_drop.mp h)

/-- A needle that stands at an offset ends within the bytes. -/
theorem StandsAt.add_length_le {needle bytes : Bytes} {i : Nat} (hn : needle ≠ []) (h : StandsAt needle bytes i) :
    i + needle.length ≤ bytes.length := by
  have hlen := List.IsPrefix.length_le h
  have hpos := List.length_pos_iff.mpr hn
  rw [List.length_drop] at hlen
  omega

/-- There is only one first offset. -/
theorem FirstFrom.eq {needle bytes : Bytes} {start i j : Nat} (h : FirstFrom needle bytes start i)
    (h' : FirstFrom needle bytes start j) : i = j := by
  obtain ⟨hi, hat, hfirst⟩ := h
  obtain ⟨hj, hat', hfirst'⟩ := h'
  refine Nat.le_antisymm (Nat.le_of_not_lt fun hlt => ?_) (Nat.le_of_not_lt fun hlt => ?_)
  · exact hfirst j hlt hj hat'
  · exact hfirst' i hlt hi hat

/-- That a needle stands first behind some bytes, said by offsets and said by what the bytes up to its end hold. -/
theorem firstFrom_length_iff {needle before : Bytes} (hn : needle ≠ []) (after : Bytes) :
    FirstFrom needle (before ++ needle ++ after) 0 before.length ↔ EndsAtFirst needle (before ++ needle) := by
  constructor
  · rintro ⟨_, _, hfirst⟩
    refine ⟨List.suffix_append _ _, fun ⟨front, back, h⟩ => ?_⟩
    have hlen := congrArg List.length h
    have hpos := List.length_pos_iff.mpr hn
    simp only [List.length_append, List.length_dropLast] at hlen
    refine hfirst front.length (by omega) (Nat.zero_le _) ?_
    -- What ends before the last byte of the needle stands in the bytes as well.
    obtain ⟨last, hlast⟩ := List.dropLast_prefix (before ++ needle)
    refine ⟨back ++ last ++ after, ?_⟩
    rw [← hlast, ← h]
    simp
  · intro hfirst
    refine ⟨Nat.zero_le _, ⟨after, by simp⟩, fun j hj _ hat => ?_⟩
    have hle : before.length ≤ ((before ++ needle ++ after).take j).length := by
      refine length_le_of_endsAtFirst hfirst (List.prefix_append _ after) ?_
      obtain ⟨rest, hrest⟩ := hat
      exact ⟨rest, by rw [List.append_assoc, hrest, List.take_append_drop]⟩
    rw [List.length_take] at hle
    omega

/-- A cut is made at the first offset at which the needle stands. -/
theorem cut?_length_eq_some_iff {needle bytes : Bytes} {i : Nat} :
    (cut? needle bytes).map (·.1.length) = some i ↔ needle ≠ [] ∧ FirstFrom needle bytes 0 i := by
  constructor
  · intro h
    obtain ⟨⟨before, after⟩, hc, rfl⟩ := Option.map_eq_some_iff.mp h
    obtain ⟨hn, rfl, hfirst⟩ := cut?_eq_some_iff.mp hc
    exact ⟨hn, (firstFrom_length_iff hn after).mpr hfirst⟩
  · rintro ⟨hn, h⟩
    obtain ⟨after, hafter⟩ := h.2.1
    have hbytes : bytes = bytes.take i ++ needle ++ after := by
      rw [List.append_assoc, hafter, List.take_append_drop]
    have hi : (bytes.take i).length = i := by
      have := StandsAt.add_length_le hn h.2.1
      rw [List.length_take]
      omega
    have hfirst : EndsAtFirst needle (bytes.take i ++ needle) := by
      rw [← firstFrom_length_iff hn after, ← hbytes, hi]
      exact h
    rw [cut?_eq_some_iff.mpr ⟨hn, hbytes, hfirst⟩, Option.map_some, hi]

namespace Offsets

/-! ## The search -/

/-- An offset or a size that is out of range. -/
structure OutOfRange where
  /-- What was asked for. -/
  wanted : Nat
  /-- What it had to stay within. -/
  bound : Nat
  deriving DecidableEq, Repr

/-- An offset so many bytes further on, which has to lie within the bytes or at their end. -/
def ahead (bytes : Bytes) (start size : Nat) : Except OutOfRange Nat :=
  if start + size ≤ bytes.length then .ok (start + size) else .error ⟨start + size, bytes.length⟩

/-- The distance between two offsets, the first of which must not lie behind the second. -/
def distance (start stop : Nat) : Except OutOfRange Nat :=
  if start ≤ stop then .ok (stop - start) else .error ⟨start, stop⟩

/-- The bytes in front of an offset and the bytes behind it. -/
def cutAt (bytes : Bytes) (i : Nat) : Except OutOfRange (Bytes × Bytes) :=
  if i ≤ bytes.length then .ok (bytes.take i, bytes.drop i) else .error ⟨i, bytes.length⟩

/-- Every run of so many bytes, in order. -/
def runs (size : Nat) : Bytes → List Bytes
  | [] => []
  | b :: rest => if size ≤ rest.length + 1 then (b :: rest).take size :: runs size rest else []

/-- Every run of so many bytes, in order. A run of no bytes is out of range. -/
def windows (bytes : Bytes) (size : Nat) : Except OutOfRange (List Bytes) :=
  if 0 < size then .ok (runs size bytes) else .error ⟨size, bytes.length⟩

/-- The first offset, from `start` on, at which the needle stands. -/
def find (bytes needle : Bytes) (start : Nat) : Except OutOfRange (Option Nat) := do
  if needle = [] ∨ bytes.length < start then
    return none
  else if (← distance start bytes.length) < needle.length then
    return none
  else
    let (_, tail) ← cutAt bytes start
    match (← windows tail needle.length).findIdx? (· == needle) with
    | none => return none
    | some i => return some (← ahead bytes i start)

/-- Where the first complete span begins, and where its closing delimiter stands. -/
def locate (bytes : Bytes) (d : Delimiters) : Except OutOfRange (Option (Nat × Nat)) := do
  match ← find bytes d.opening 0 with
  | none => return none
  | some start =>
    match ← find bytes d.closing (← ahead bytes start d.opening.length) with
    | none => return none
    | some last => return some (start, last)

/-- The first complete span and the bytes behind it; without one, the bytes as they are. -/
def extract (bytes : Bytes) (d : Delimiters) : Except OutOfRange (Option Bytes × Bytes) := do
  match ← locate bytes d with
  | none => return (none, bytes)
  | some (start, last) =>
    let stop ← ahead bytes last d.closing.length
    let (_, tail) ← cutAt bytes start
    let (span, rest) ← cutAt tail (← distance start stop)
    return (some span, rest)

/-- The offset at which the first complete span begins. -/
def spanStart (bytes : Bytes) (d : Delimiters) : Except OutOfRange (Option Nat) := do
  match ← locate bytes d with
  | none => return none
  | some (start, _) => return some start

/-! ## The search stays in range -/

theorem ahead_of_le {bytes : Bytes} {start size : Nat} (h : start + size ≤ bytes.length) :
    ahead bytes start size = .ok (start + size) :=
  if_pos h

theorem distance_of_le {start stop : Nat} (h : start ≤ stop) : distance start stop = .ok (stop - start) :=
  if_pos h

theorem cutAt_of_le {bytes : Bytes} {i : Nat} (h : i ≤ bytes.length) :
    cutAt bytes i = .ok (bytes.take i, bytes.drop i) :=
  if_pos h

theorem windows_of_ne {bytes needle : Bytes} (hn : needle ≠ []) :
    windows bytes needle.length = .ok (runs needle.length bytes) :=
  if_pos (List.length_pos_iff.mpr hn)

/-- Nothing is cut from bytes that are shorter than the needle. -/
theorem cut?_of_short {needle bytes : Bytes} (h : bytes.length < needle.length) : cut? needle bytes = none := by
  refine cut?_eq_none_iff.mpr (Or.inr fun hin => ?_)
  have hle := hin.length_le
  omega

/-- The first run that is the needle begins where the needle is cut out. -/
theorem findIdx?_runs {needle : Bytes} (hn : needle ≠ []) (bytes : Bytes) :
    (runs needle.length bytes).findIdx? (· == needle) = (cut? needle bytes).map (·.1.length) := by
  induction bytes with
  | nil => rfl
  | cons b rest ih =>
    rw [runs]
    by_cases hlen : needle.length ≤ rest.length + 1
    · rw [if_pos hlen, List.findIdx?_cons, ih, cut?]
      by_cases hl : leads needle (b :: rest)
      · have htake := List.prefix_iff_eq_take.mp (leads_iff.mp hl).2
        rw [if_pos hl, ← htake, if_pos (beq_self_eq_true needle)]
        rfl
      · have htake : ¬((b :: rest).take needle.length == needle) := by
          intro h
          exact hl (leads_iff.mpr ⟨hn, List.prefix_iff_eq_take.mpr (eq_of_beq h).symm⟩)
        rw [if_neg hl, if_neg htake, Option.map_map, Option.map_map]
        rfl
    · rw [if_neg hlen, cut?_of_short (by simpa using hlen)]
      rfl

/-- A search finds the first offset from its start on, and stays in range. -/
theorem find_eq (bytes needle : Bytes) (start : Nat) :
    find bytes needle start = .ok ((cut? needle (bytes.drop start)).map (·.1.length + start)) := by
  unfold find
  by_cases hout : needle = [] ∨ bytes.length < start
  · have hnone : cut? needle (bytes.drop start) = none := by
      rcases hout with hn | hlt
      · exact cut?_eq_none_iff.mpr (Or.inl hn)
      · rw [List.drop_of_length_le (Nat.le_of_lt hlt)]
        rfl
    rw [if_pos hout, hnone]
    rfl
  · obtain ⟨hn, hstart⟩ := not_or.mp hout
    have hle := Nat.le_of_not_lt hstart
    rw [if_neg hout]
    simp only [bind, Except.bind, distance_of_le hle]
    by_cases hshort : bytes.length - start < needle.length
    · rw [if_pos hshort, cut?_of_short (by rwa [List.length_drop])]
      rfl
    · simp only [if_neg hshort, cutAt_of_le hle, windows_of_ne hn, findIdx?_runs hn]
      cases hc : cut? needle (bytes.drop start) with
      | none => rfl
      | some p =>
        have hlen := congrArg List.length (eq_of_cut? hc).2
        simp only [List.length_drop, List.length_append] at hlen
        simp only [Option.map_some, ahead_of_le (show p.1.length + start ≤ bytes.length by omega)]
        rfl

/-- What a search finds is the first offset, from its start on, at which the needle stands. -/
theorem find_eq_some_iff {bytes needle : Bytes} {start i : Nat} :
    find bytes needle start = .ok (some i) ↔ needle ≠ [] ∧ FirstFrom needle bytes start i := by
  rw [find_eq, Except.ok.injEq]
  constructor
  · intro h
    obtain ⟨p, hc, rfl⟩ := Option.map_eq_some_iff.mp h
    have hcut := cut?_length_eq_some_iff.mp (congrArg (Option.map (·.1.length)) hc)
    exact ⟨hcut.1, firstFrom_drop.mp hcut.2⟩
  · rintro ⟨hn, h⟩
    have hi : i - start + start = i := Nat.sub_add_cancel h.1
    have hcut := cut?_length_eq_some_iff.mpr ⟨hn, firstFrom_drop.mpr (hi.symm ▸ h)⟩
    obtain ⟨p, hc, hp⟩ := Option.map_eq_some_iff.mp hcut
    rw [hc, Option.map_some, hp, hi]

/-- The two ends of the first complete span are those of the frame, and are found in range. -/
theorem locate_eq (bytes : Bytes) (d : Delimiters) :
    locate bytes d =
      .ok ((d.frame? bytes).map fun f => (f.dropped.length, f.dropped.length + f.span.length - d.closing.length)) := by
  simp only [locate, Delimiters.frame?, bind, Except.bind, find_eq, List.drop_zero]
  cases ho : cut? d.opening bytes with
  | none => rfl
  | some p =>
    obtain ⟨dropped, body⟩ := p
    obtain ⟨-, rfl⟩ := eq_of_cut? ho
    have hfront : dropped.length + d.opening.length ≤ (dropped ++ d.opening ++ body).length := by simp
    have hbody : (dropped ++ d.opening ++ body).drop (dropped.length + d.opening.length) = body := by
      rw [← List.length_append, List.drop_left]
    simp only [Option.map_some, Nat.add_zero, ahead_of_le hfront, hbody]
    cases hc : cut? d.closing body with
    | none => rfl
    | some q =>
      simp only [Option.map_some, List.length_append, pure, Except.pure, Except.ok.injEq, Option.some.injEq, Prod.mk.injEq,
        true_and]
      omega

/-- Taking a span out by offsets stays in range, and takes the span that the buffer gives. -/
theorem extract_eq (b : ReceiveBuffer) (d : Delimiters) :
    extract b.bytes d = .ok ((b.extract d).1, (b.extract d).2.bytes) := by
  obtain ⟨bytes⟩ := b
  simp only [extract, ReceiveBuffer.extract, locate_eq, bind, Except.bind]
  cases hf : d.frame? bytes with
  | none => rfl
  | some f =>
    obtain ⟨_, _, rfl, content, hs⟩ := Delimiters.eq_of_frame? hf
    have hlast : f.dropped.length + f.span.length - d.closing.length + d.closing.length = f.dropped.length + f.span.length := by
      simp only [hs, List.length_append]
      omega
    have hstop : ahead (f.dropped ++ f.span ++ f.rest) (f.dropped.length + f.span.length - d.closing.length) d.closing.length =
        .ok (f.dropped.length + f.span.length) := by
      rw [ahead_of_le (by simp [hlast]), hlast]
    have htail : cutAt (f.dropped ++ f.span ++ f.rest) f.dropped.length = .ok (f.dropped, f.span ++ f.rest) := by
      rw [cutAt_of_le (by simp), List.append_assoc, List.take_left, List.drop_left]
    have hspan : cutAt (f.span ++ f.rest) f.span.length = .ok (f.span, f.rest) := by
      rw [cutAt_of_le (by simp), List.take_left, List.drop_left]
    simp only [Option.map_some, hstop, htail, distance_of_le (Nat.le_add_right _ _), Nat.add_sub_cancel_left, hspan]
    rfl

/-- The offset of the span is found in range, and is the one that the buffer gives. -/
theorem spanStart_eq (b : ReceiveBuffer) (d : Delimiters) : spanStart b.bytes d = .ok (b.spanStart? d) := by
  simp only [spanStart, ReceiveBuffer.spanStart?, locate_eq, bind, Except.bind]
  cases d.frame? b.bytes <;> rfl

end Offsets

/-! ## When there is a span, and which one -/

/-- The opening delimiter stands in the bytes, and the closing one stands behind the end of its first occurrence. -/
def Delimiters.Closes (d : Delimiters) (bytes : Bytes) : Prop :=
  ∃ start last, FirstFrom d.opening bytes 0 start ∧ start + d.opening.length ≤ last ∧ StandsAt d.closing bytes last

/-- A closing delimiter behind an opening one makes a span. -/
theorem Delimiters.Closes.hasSpan {d : Delimiters} {bytes : Bytes} (h : d.Closes bytes) : d.HasSpan bytes := by
  obtain ⟨start, last, ⟨_, ⟨body, hbody⟩, _⟩, hle, after, hafter⟩ := h
  have hclosing : body.drop (last - (start + d.opening.length)) = d.closing ++ after := by
    have hdrop : (d.opening ++ body).drop d.opening.length = body := List.drop_left
    rw [hafter, ← hdrop, hbody, List.drop_drop, List.drop_drop]
    congr 1
    omega
  refine ⟨bytes.take start, body.take (last - (start + d.opening.length)), after, ?_⟩
  rw [List.append_assoc, List.append_assoc, ← hclosing, List.append_assoc, List.take_append_drop, hbody, List.take_append_drop]

/-- A frame by offsets: the opening delimiter stands first at its beginning, and the closing one first at its end. -/
theorem Delimiters.firstFrom_of_frame? {d : Delimiters} {bytes : Bytes} {f : Frame} (h : d.frame? bytes = some f) :
    ∃ content, bytes = f.dropped ++ f.span ++ f.rest ∧ f.span = d.opening ++ content ++ d.closing ∧
      FirstFrom d.opening bytes 0 f.dropped.length ∧ FirstFrom d.closing (content ++ d.closing) 0 content.length := by
  obtain ⟨hopening, hclosing, rfl, hfirst, body, hspan, hlast⟩ := frame?_eq_some_iff.mp h
  obtain ⟨content, rfl⟩ := hlast.1
  refine ⟨content, rfl, by rw [hspan, List.append_assoc], ?_, ?_⟩
  · have hfront := (firstFrom_length_iff hopening (content ++ d.closing ++ f.rest)).mpr hfirst
    rw [hspan]
    simpa using hfront
  · simpa using (firstFrom_length_iff hclosing []).mpr hlast

/-- There is a frame exactly where the delimiters close. -/
theorem Delimiters.frame?_eq_none_iff_not_closes {d : Delimiters} {bytes : Bytes} (hopening : d.opening ≠ [])
    (hclosing : d.closing ≠ []) : d.frame? bytes = none ↔ ¬d.Closes bytes := by
  constructor
  · intro hnone h
    obtain ⟨f, hf⟩ := exists_frame?_of_hasSpan hopening hclosing h.hasSpan
    cases hnone.symm.trans hf
  · intro h
    cases hf : d.frame? bytes with
    | none => rfl
    | some f =>
      obtain ⟨content, hbytes, hspan, hfirst, _⟩ := firstFrom_of_frame? hf
      refine absurd ⟨f.dropped.length, f.dropped.length + (d.opening ++ content).length, hfirst, by simp, f.rest, ?_⟩ h
      rw [hbytes, hspan]
      simp [← List.drop_drop]

open Offsets in
/-- Taking a span out of a buffer, in three parts. For every buffer and all delimiters:
1. With all sums, differences and cuts checked, the search of a needle from an offset, the taking of a span and the search of its
   beginning stay in range. The first finds the first offset, from its start on, at which the needle stands, and an empty needle
   nowhere; the other two do as the buffer does.
2. If neither delimiter is empty, a span is taken exactly where the opening delimiter stands and the closing one stands behind the
   end of its first occurrence. It then begins at the first opening delimiter and ends with the first closing one behind it, the
   bytes after it are left, and its beginning is the offset that is told. Otherwise the buffer stays, and no offset is told.
3. If a delimiter is empty, no offset is told. -/
theorem extraction_by_offsets (b : ReceiveBuffer) (d : Delimiters) :
    ((∀ needle start, ∃ found?, find b.bytes needle start = .ok found? ∧
          ∀ i, found? = some i ↔ needle ≠ [] ∧ FirstFrom needle b.bytes start i) ∧
        extract b.bytes d = .ok ((b.extract d).1, (b.extract d).2.bytes) ∧ spanStart b.bytes d = .ok (b.spanStart? d)) ∧
      (d.opening ≠ [] → d.closing ≠ [] →
        (d.Closes b.bytes →
          ∃ before content rest, b.extract d = (some (d.opening ++ content ++ d.closing), ⟨rest⟩) ∧
            b.spanStart? d = some before.length ∧ b.bytes = before ++ (d.opening ++ content ++ d.closing) ++ rest ∧
            FirstFrom d.opening b.bytes 0 before.length ∧ FirstFrom d.closing (content ++ d.closing) 0 content.length) ∧
        (¬d.Closes b.bytes → b.extract d = (none, b) ∧ b.spanStart? d = none)) ∧
      (d.opening = [] ∨ d.closing = [] → b.spanStart? d = none) := by
  refine ⟨⟨fun needle start => ⟨_, find_eq b.bytes needle start, fun i => ?_⟩, extract_eq b d, spanStart_eq b d⟩,
    fun hopening hclosing => ⟨fun hcloses => ?_, fun hcloses => ?_⟩, fun hempty => ?_⟩
  · rw [← find_eq_some_iff, find_eq, Except.ok.injEq]
  · obtain ⟨f, hf⟩ := Delimiters.exists_frame?_of_hasSpan hopening hclosing hcloses.hasSpan
    obtain ⟨content, hbytes, hspan, hfirst, hlast⟩ := Delimiters.firstFrom_of_frame? hf
    refine ⟨f.dropped, content, f.rest, ?_, ?_, ?_, hfirst, hlast⟩
    · rw [ReceiveBuffer.extract_eq_some_iff, ← hspan]
      exact ⟨f.dropped, hf⟩
    · rw [ReceiveBuffer.spanStart?, hf]
      rfl
    · rw [← hspan, hbytes]
  · have hnone := (Delimiters.frame?_eq_none_iff_not_closes hopening hclosing).mpr hcloses
    exact ⟨ReceiveBuffer.extract_eq_none_iff.mpr ⟨hnone, rfl⟩, by rw [ReceiveBuffer.spanStart?, hnone]; rfl⟩
  · cases hf : d.frame? b.bytes with
    | none => rw [ReceiveBuffer.spanStart?, hf]; rfl
    | some f =>
      obtain ⟨hopening, hclosing, _⟩ := Delimiters.eq_of_frame? hf
      exact absurd hempty (not_or.mpr ⟨hopening, hclosing⟩)

/-- Delimiters that overlap: the closing one that begins inside the opening one is passed over, and the next one ends the span. -/
theorem extraction_by_offsets_overlapping :
    let d : Delimiters := ⟨Utf8.ofString "<a>", Utf8.ofString "a><"⟩
    let b : ReceiveBuffer := ⟨Utf8.ofString "x<a><a><"⟩
    (d.opening ≠ [] ∧ d.closing ≠ [] ∧ d.Closes b.bytes) ∧ b.spanStart? d = some 1 ∧
      b.extract d = (some (Utf8.ofString "<a><a><"), .empty) := by
  intro d b
  have hopening : d.opening ≠ [] := by decide
  have hclosing : d.closing ≠ [] := by decide
  have hcloses : d.Closes b.bytes := ⟨1, 5, by decide +kernel, by decide, by decide +kernel⟩
  obtain ⟨before, _, _, -, hstart, -, hfirst, -⟩ := ((extraction_by_offsets b d).2.1 hopening hclosing).1 hcloses
  have hbefore : before.length = 1 := hfirst.eq (by decide +kernel)
  exact ⟨⟨hopening, hclosing, hcloses⟩, by rw [hstart, hbefore], by decide +kernel⟩

end StreamAuth
