import StreamAuth.Text.Utf8

/-!
# Framing

A stream of XML has no lengths in it: a stanza is complete once its end delimiter has arrived. A byte string is taken apart at
its first complete span between two delimiters, into the bytes in front of the span, the span and what is left. Where several
kinds of span are looked for, the one that begins first counts.
-/

namespace StreamAuth

/-- Whether `needle` stands at the front of `bytes`. An empty needle stands nowhere. -/
@[inline] def leads (needle bytes : Bytes) : Bool :=
  match needle, bytes with
  | x :: needle, b :: rest => x == b && needle.isPrefixOf rest
  | _, _ => false

theorem leads_iff {needle bytes : Bytes} : leads needle bytes ↔ needle ≠ [] ∧ needle <+: bytes := by
  rcases needle with _ | ⟨x, needle⟩ <;> rcases bytes with _ | ⟨b, rest⟩ <;> simp [leads, List.cons_prefix_cons]

/-- The bytes before and after the first occurrence of `needle`. -/
def cut? (needle : Bytes) : Bytes → Option (Bytes × Bytes)
  | [] => none
  | b :: rest =>
    if leads needle (b :: rest) then some ([], (b :: rest).drop needle.length)
    else (cut? needle rest).map fun (before, after) => (b :: before, after)

/-- What the first occurrence cuts apart, the needle joins again. -/
theorem eq_of_cut? {needle bytes before after : Bytes} (h : cut? needle bytes = some (before, after)) :
    needle ≠ [] ∧ bytes = before ++ needle ++ after := by
  induction bytes generalizing before with
  | nil => simp [cut?] at h
  | cons b rest ih =>
    unfold cut? at h
    split at h
    · next hn =>
      obtain ⟨hne, tail, ht⟩ := leads_iff.mp hn
      cases h
      exact ⟨hne, by rw [← ht]; simp⟩
    · cases hc : cut? needle rest with
      | none => simp [hc] at h
      | some p =>
        simp only [hc, Option.map_some, Option.some.injEq, Prod.mk.injEq] at h
        obtain ⟨rfl, rfl⟩ := h
        exact ⟨(ih hc).1, by rw [(ih hc).2]; simp⟩

/-- Where a span begins and where it ends. -/
structure Delimiters where
  /-- The bytes that begin a span. -/
  opening : Bytes
  /-- The bytes that end it. -/
  closing : Bytes
  deriving DecidableEq, Repr

/-- A byte string taken apart at its first complete span. -/
structure Frame where
  /-- The bytes in front of the span. -/
  dropped : Bytes
  /-- The span, with both of its delimiters. -/
  span : Bytes
  /-- The bytes after the span. -/
  rest : Bytes
  deriving DecidableEq, Repr

/-- The first complete span of `bytes`: from the first opening delimiter to the first closing one after it. -/
def Delimiters.frame? (d : Delimiters) (bytes : Bytes) : Option Frame :=
  match cut? d.opening bytes with
  | none => none
  | some (dropped, body) =>
    match cut? d.closing body with
    | none => none
    | some (content, rest) => some ⟨dropped, d.opening ++ content ++ d.closing, rest⟩

/-- A frame holds the bytes it was taken from, and both delimiters of its span are there. -/
theorem Delimiters.eq_of_frame? {d : Delimiters} {bytes : Bytes} {f : Frame} (h : d.frame? bytes = some f) :
    d.opening ≠ [] ∧ d.closing ≠ [] ∧ bytes = f.dropped ++ f.span ++ f.rest ∧
      ∃ content, f.span = d.opening ++ content ++ d.closing := by
  unfold Delimiters.frame? at h
  split at h
  · cases h
  · next dropped body ho =>
    split at h
    · cases h
    · next content rest hc =>
      cases h
      obtain ⟨hopening, rfl⟩ := eq_of_cut? ho
      obtain ⟨hclosing, rfl⟩ := eq_of_cut? hc
      exact ⟨hopening, hclosing, by simp, content, rfl⟩

/-- What follows a span is shorter than what it was taken from. -/
theorem Delimiters.length_rest_lt {d : Delimiters} {bytes : Bytes} {f : Frame} (h : d.frame? bytes = some f) :
    f.rest.length < bytes.length := by
  obtain ⟨ho, _, hb, content, hs⟩ := Delimiters.eq_of_frame? h
  have := List.length_pos_iff.mpr ho
  rw [hb, hs]
  simp only [List.length_append]
  omega

/-! ## Several kinds of span -/

/-- Whether the opening delimiter stands at the front of `bytes`. -/
def Delimiters.opens (d : Delimiters) (bytes : Bytes) : Bool :=
  leads d.opening bytes

/-- The complete span that begins at the front of `bytes`, and the bytes after it. -/
def Delimiters.spanHere? (d : Delimiters) (bytes : Bytes) : Option (Bytes × Bytes) :=
  if d.opens bytes then
    (cut? d.closing (bytes.drop d.opening.length)).map fun (content, rest) => (d.opening ++ content ++ d.closing, rest)
  else none

/-- The frame of a byte string that has one byte more in front. -/
def Frame.behind (b : UInt8) (f : Frame) : Frame :=
  { f with dropped := b :: f.dropped }

/-- The first complete span begins where the opening delimiter first stands, or nowhere. -/
theorem Delimiters.frame?_cons (d : Delimiters) (b : UInt8) (rest : Bytes) :
    d.frame? (b :: rest) =
      if d.opens (b :: rest) then (d.spanHere? (b :: rest)).map fun (span, rest) => ⟨[], span, rest⟩
      else (d.frame? rest).map (Frame.behind b) := by
  by_cases ho : d.opens (b :: rest)
  · have hl : leads d.opening (b :: rest) := ho
    rw [if_pos ho, spanHere?, if_pos ho, frame?, cut?, if_pos hl]
    simp only
    cases cut? d.closing ((b :: rest).drop d.opening.length) <;> rfl
  · have hl : ¬leads d.opening (b :: rest) := ho
    rw [if_neg ho, frame?, frame?, cut?, if_neg hl]
    cases cut? d.opening rest with
    | none => rfl
    | some p =>
      simp only [Option.map_some]
      cases cut? d.closing p.2 <;> rfl

/-- A complete span of one of several kinds. -/
structure Span (κ : Type) where
  /-- The kind of the span. -/
  kind : κ
  /-- The span, with both of its delimiters. -/
  bytes : Bytes
  /-- The bytes after the span. -/
  rest : Bytes
  deriving DecidableEq, Repr

/-- The complete span of one of the kinds that begins at the front of `bytes`. Of two that do, the first counts. -/
def spanHere? {κ : Type} (kinds : List (κ × Delimiters)) (bytes : Bytes) : Option (Span κ) :=
  kinds.findSome? fun (kind, d) => (d.spanHere? bytes).map fun (span, rest) => ⟨kind, span, rest⟩

/-- The complete span of one of the kinds that begins first. A kind whose opening delimiter stands somewhere without its
closing one behind it has no complete span at all, and is not looked for any further. -/
def earliest? {κ : Type} (kinds : List (κ × Delimiters)) : Bytes → Option (Span κ)
  | [] => none
  | b :: rest =>
    if kinds.any fun (_, d) => d.opens (b :: rest) then
      match spanHere? kinds (b :: rest) with
      | some span => some span
      | none => earliest? (kinds.filter fun (_, d) => !d.opens (b :: rest)) rest
    else earliest? kinds rest

theorem Delimiters.opens_of_spanHere? {d : Delimiters} {bytes : Bytes} {p : Bytes × Bytes} (h : d.spanHere? bytes = some p) :
    d.opens bytes := by
  unfold spanHere? at h
  split at h
  · assumption
  · cases h

/-- The earliest span is the first complete span of its kind, and no complete span of any kind begins before it. -/
theorem frame?_of_earliest? {κ : Type} {kinds : List (κ × Delimiters)} {bytes : Bytes} {span : Span κ}
    (h : earliest? kinds bytes = some span) :
    ∃ d dropped, (span.kind, d) ∈ kinds ∧ d.frame? bytes = some ⟨dropped, span.bytes, span.rest⟩ ∧
      ∀ kind d' f, (kind, d') ∈ kinds → d'.frame? bytes = some f → dropped.length ≤ f.dropped.length := by
  induction bytes generalizing kinds with
  | nil => cases h
  | cons b rest ih =>
    unfold earliest? at h
    split at h
    · split at h
      · next found hf =>
        cases h
        obtain ⟨⟨k, d⟩, hm, hd⟩ := List.exists_of_findSome?_eq_some hf
        obtain ⟨p, hp, rfl⟩ := Option.map_eq_some_iff.mp hd
        refine ⟨d, [], hm, ?_, fun _ _ _ _ _ => Nat.zero_le _⟩
        rw [Delimiters.frame?_cons, if_pos (Delimiters.opens_of_spanHere? hp), hp]
        rfl
      · next hf =>
        obtain ⟨d, dropped, hm, hd, hmin⟩ := ih h
        obtain ⟨hm, hn⟩ := List.mem_filter.mp hm
        refine ⟨d, b :: dropped, hm, ?_, fun kind d' f hm' hf' => ?_⟩
        · rw [Delimiters.frame?_cons, if_neg (by simpa using hn), hd]
          rfl
        · rw [Delimiters.frame?_cons] at hf'
          by_cases ho : d'.opens (b :: rest)
          · have := Option.map_eq_none_iff.mp (List.findSome?_eq_none_iff.mp hf _ hm')
            rw [if_pos ho, this] at hf'
            cases hf'
          · rw [if_neg ho] at hf'
            obtain ⟨g, hg, rfl⟩ := Option.map_eq_some_iff.mp hf'
            exact Nat.succ_le_succ (hmin kind d' g (List.mem_filter.mpr ⟨hm', by simpa using ho⟩) hg)
    · next hn =>
      have hno : ∀ {kind d'}, (kind, d') ∈ kinds → ¬d'.opens (b :: rest) := fun hm' ho =>
        hn (List.any_eq_true.mpr ⟨_, hm', ho⟩)
      obtain ⟨d, dropped, hm, hd, hmin⟩ := ih h
      refine ⟨d, b :: dropped, hm, ?_, fun kind d' f hm' hf' => ?_⟩
      · rw [Delimiters.frame?_cons, if_neg (hno hm), hd]
        rfl
      · rw [Delimiters.frame?_cons, if_neg (hno hm')] at hf'
        obtain ⟨g, hg, rfl⟩ := Option.map_eq_some_iff.mp hf'
        exact Nat.succ_le_succ (hmin kind d' g hm' hg)

/-- A byte string has an earliest span unless no kind has a complete span in it. -/
theorem frame?_of_earliest?_eq_none {κ : Type} {kinds : List (κ × Delimiters)} {bytes : Bytes} {kind : κ} {d : Delimiters}
    (h : earliest? kinds bytes = none) (hm : (kind, d) ∈ kinds) : d.frame? bytes = none := by
  induction bytes generalizing kinds with
  | nil => rfl
  | cons b rest ih =>
    rw [Delimiters.frame?_cons]
    unfold earliest? at h
    split at h
    · split at h
      · cases h
      · next hf =>
        by_cases ho : d.opens (b :: rest)
        · rw [if_pos ho, Option.map_eq_none_iff.mp (List.findSome?_eq_none_iff.mp hf _ hm)]
          rfl
        · rw [if_neg ho, ih h (List.mem_filter.mpr ⟨hm, by simpa using ho⟩)]
          rfl
    · next hn =>
      have hno : ¬d.opens (b :: rest) := fun ho => hn (List.any_eq_true.mpr ⟨_, hm, ho⟩)
      rw [if_neg hno, ih h hm]
      rfl

end StreamAuth
