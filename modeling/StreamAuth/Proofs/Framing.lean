import StreamAuth.ReceiveBuffer

/-!
# Frames of a growing byte string

What the search for spans finds, stated by occurrences alone: `cut?` stops at the first occurrence of its needle, a frame is the
first opening delimiter with the first closing one after it, and `earliest?` gives the frame that begins first. Bytes that are
added at the end never move what has been found, which is what lets a stream be read in pieces.
-/

namespace StreamAuth

/-! ## First occurrences -/

/-- The bytes end with the needle, and it stands nowhere before in them. -/
def EndsAtFirst (needle bytes : Bytes) : Prop :=
  needle <:+ bytes ∧ ¬needle <:+: bytes.dropLast

instance (needle bytes : Bytes) : Decidable (EndsAtFirst needle bytes) :=
  inferInstanceAs (Decidable (_ ∧ _))

/-- A needle is the first occurrence of itself. -/
theorem endsAtFirst_self {needle : Bytes} (hn : needle ≠ []) : EndsAtFirst needle needle := by
  refine ⟨List.suffix_rfl, fun h => ?_⟩
  have hlen := h.length_le
  have hpos := List.length_pos_iff.mpr hn
  rw [List.length_dropLast] at hlen
  omega

/-- A byte put in front keeps the needle's first occurrence at the end unless the needle now stands at the front. -/
theorem endsAtFirst_cons_iff {needle before : Bytes} {b : UInt8} (hn : needle ≠ []) :
    EndsAtFirst needle (b :: before ++ needle) ↔
      ¬needle <+: b :: before ++ needle ∧ EndsAtFirst needle (before ++ needle) := by
  have hne : before ++ needle ≠ [] := by simp [hn]
  have hd : (b :: before ++ needle).dropLast = b :: (before ++ needle).dropLast := by
    rw [List.cons_append, List.dropLast_cons_of_ne_nil hne]
  have hfront : needle <+: b :: (before ++ needle).dropLast ↔ needle <+: b :: before ++ needle := by
    constructor
    · intro h
      rw [← hd] at h
      exact h.trans (List.dropLast_prefix _)
    · intro h
      rw [← hd]
      refine List.prefix_of_prefix_length_le h (List.dropLast_prefix _) ?_
      simp only [List.length_dropLast, List.length_cons, List.length_append]
      omega
  simp only [EndsAtFirst, hd, List.infix_cons_iff, hfront, not_or, List.suffix_append, true_and]

/-- Nothing is cut exactly when the needle is empty or stands nowhere. -/
theorem cut?_eq_none_iff {needle bytes : Bytes} : cut? needle bytes = none ↔ needle = [] ∨ ¬needle <:+: bytes := by
  induction bytes with
  | nil => simp [cut?, List.infix_nil, Classical.em]
  | cons b rest ih =>
    unfold cut?
    by_cases hl : leads needle (b :: rest)
    · obtain ⟨hne, hp⟩ := leads_iff.mp hl
      simp [hl, hne, hp.isInfix]
    · have hp : needle = [] ∨ ¬needle <+: b :: rest := by
        by_cases hne : needle = []
        · exact Or.inl hne
        · exact Or.inr fun h => hl (leads_iff.mpr ⟨hne, h⟩)
      rw [if_neg hl, Option.map_eq_none_iff, ih, List.infix_cons_iff]
      rcases hp with hp | hp
      · simp [hp]
      · simp [hp]

/-- A cut is made at the first occurrence of the needle, and nowhere else. -/
theorem cut?_eq_some_iff {needle bytes before after : Bytes} :
    cut? needle bytes = some (before, after) ↔
      needle ≠ [] ∧ bytes = before ++ needle ++ after ∧ EndsAtFirst needle (before ++ needle) := by
  induction bytes generalizing before with
  | nil =>
    simp only [cut?, reduceCtorEq, false_iff, not_and]
    intro hn h
    simp [hn] at h
  | cons b rest ih =>
    unfold cut?
    by_cases hl : leads needle (b :: rest)
    · obtain ⟨hn, hp⟩ := leads_iff.mp hl
      obtain ⟨tail, ht⟩ := hp
      rw [if_pos hl, ← ht, List.drop_left]
      constructor
      · intro h
        cases h
        exact ⟨hn, rfl, endsAtFirst_self hn⟩
      · rintro ⟨_, h, hfirst⟩
        cases before with
        | nil =>
          have hafter : tail = after := List.append_cancel_left h
          rw [hafter]
        | cons c before =>
          have hfront : needle <+: c :: before ++ needle := by
            refine List.prefix_of_prefix_length_le (List.prefix_append needle tail) (h ▸ List.prefix_append _ after) ?_
            simp only [List.length_cons, List.length_append]
            omega
          exact absurd hfront ((endsAtFirst_cons_iff hn).mp hfirst).1
    · rw [if_neg hl]
      constructor
      · intro h
        obtain ⟨⟨before', after'⟩, hc, he⟩ := Option.map_eq_some_iff.mp h
        cases he
        obtain ⟨hn, rfl, hfirst⟩ := ih.mp hc
        refine ⟨hn, by simp, (endsAtFirst_cons_iff hn).mpr ⟨fun hp => ?_, hfirst⟩⟩
        exact hl (leads_iff.mpr ⟨hn, hp.trans (by simp)⟩)
      · rintro ⟨hn, h, hfirst⟩
        cases before with
        | nil => exact absurd (leads_iff.mpr ⟨hn, after, h.symm⟩) hl
        | cons c before =>
          obtain ⟨rfl, rfl⟩ := List.cons.inj h
          have hc := ih.mpr ⟨hn, rfl, ((endsAtFirst_cons_iff hn).mp hfirst).2⟩
          rw [hc]
          rfl

/-- Of two occurrences, the first one does not come after the other. -/
theorem length_le_of_endsAtFirst {needle before other bytes : Bytes} (hfirst : EndsAtFirst needle (before ++ needle))
    (hbefore : before ++ needle <+: bytes) (hother : other ++ needle <+: bytes) : before.length ≤ other.length := by
  refine Nat.le_of_not_lt fun hlt => hfirst.2 ?_
  have hp : other ++ needle <+: (before ++ needle).dropLast := by
    refine List.prefix_of_prefix_length_le hother ((List.dropLast_prefix _).trans hbefore) ?_
    simp only [List.length_dropLast, List.length_append]
    omega
  exact (List.suffix_append other needle).isInfix.trans hp.isInfix

/-! ## Frames -/

namespace Delimiters

/-- A span: it begins with the opening delimiter, and ends with the first closing one after it. -/
def Encloses (d : Delimiters) (span : Bytes) : Prop :=
  ∃ body, span = d.opening ++ body ∧ EndsAtFirst d.closing body

/-- Somewhere in the bytes the opening delimiter stands, and the closing one somewhere after it. -/
def HasSpan (d : Delimiters) (bytes : Bytes) : Prop :=
  ∃ before content after, bytes = before ++ d.opening ++ content ++ d.closing ++ after

/-- A frame is the first opening delimiter with the first closing one after it, and there is no other. -/
theorem frame?_eq_some_iff {d : Delimiters} {bytes : Bytes} {f : Frame} :
    d.frame? bytes = some f ↔
      d.opening ≠ [] ∧ d.closing ≠ [] ∧ bytes = f.dropped ++ f.span ++ f.rest ∧
        EndsAtFirst d.opening (f.dropped ++ d.opening) ∧ d.Encloses f.span := by
  unfold frame?
  constructor
  · intro h
    split at h
    · cases h
    · rename_i dropped body ho
      split at h
      · cases h
      · rename_i content rest hc
        cases h
        obtain ⟨hopening, rfl, hfirst⟩ := cut?_eq_some_iff.mp ho
        obtain ⟨hclosing, rfl, hlast⟩ := cut?_eq_some_iff.mp hc
        exact ⟨hopening, hclosing, by simp, hfirst, content ++ d.closing, by simp, hlast⟩
  · rintro ⟨hopening, hclosing, rfl, hfirst, body, hspan, hlast⟩
    obtain ⟨content, rfl⟩ := hlast.1
    have ho : cut? d.opening (f.dropped ++ f.span ++ f.rest) = some (f.dropped, content ++ d.closing ++ f.rest) :=
      cut?_eq_some_iff.mpr ⟨hopening, by simp [hspan], hfirst⟩
    have hc : cut? d.closing (content ++ d.closing ++ f.rest) = some (content, f.rest) :=
      cut?_eq_some_iff.mpr ⟨hclosing, rfl, hlast⟩
    simp only [ho, hc, Option.some.injEq]
    rw [List.append_assoc, ← hspan]

/-- More bytes at the end do not move a frame. -/
theorem frame?_append {d : Delimiters} {bytes : Bytes} {f : Frame} (more : Bytes) (h : d.frame? bytes = some f) :
    d.frame? (bytes ++ more) = some { f with rest := f.rest ++ more } := by
  obtain ⟨hopening, hclosing, rfl, hfirst, henc⟩ := frame?_eq_some_iff.mp h
  exact frame?_eq_some_iff.mpr ⟨hopening, hclosing, by simp, hfirst, henc⟩

/-- Bytes with a span in them have a frame. -/
theorem exists_frame?_of_hasSpan {d : Delimiters} {bytes : Bytes} (hopening : d.opening ≠ []) (hclosing : d.closing ≠ [])
    (h : d.HasSpan bytes) : ∃ f, d.frame? bytes = some f := by
  obtain ⟨before, content, after, hb⟩ := h
  have hin : d.opening <:+: bytes := ⟨before, content ++ d.closing ++ after, by simp [hb]⟩
  cases ho : cut? d.opening bytes with
  | none => exact absurd hin ((cut?_eq_none_iff.mp ho).resolve_left hopening)
  | some p =>
    obtain ⟨dropped, body⟩ := p
    obtain ⟨_, hbytes, hfirst⟩ := cut?_eq_some_iff.mp ho
    have hle : dropped.length ≤ before.length :=
      length_le_of_endsAtFirst hfirst ⟨body, hbytes.symm⟩ ⟨content ++ d.closing ++ after, by simp [hb]⟩
    -- The first opening stands no later than the one given, so the closing one is in what follows it.
    have hlater : content ++ d.closing ++ after <:+ bytes := ⟨before ++ d.opening, by simp [hb]⟩
    have hbody : content ++ d.closing ++ after <:+ body := by
      refine List.suffix_of_suffix_length_le hlater ⟨dropped ++ d.opening, hbytes.symm⟩ ?_
      have h1 := congrArg List.length hb
      have h2 := congrArg List.length hbytes
      simp only [List.length_append] at h1 h2 ⊢
      omega
    have hclose : d.closing <:+: body := List.IsInfix.trans ⟨content, after, rfl⟩ hbody.isInfix
    cases hc : cut? d.closing body with
    | none => exact absurd hclose ((cut?_eq_none_iff.mp hc).resolve_left hclosing)
    | some q => exact ⟨⟨dropped, d.opening ++ q.1 ++ d.closing, q.2⟩, by simp only [frame?, ho, hc]⟩

end Delimiters

/-! ## The span that begins first -/

/-- A byte string has an earliest span once a kind has a frame in it. -/
theorem exists_earliest?_of_frame? {κ : Type} {kinds : List (κ × Delimiters)} {bytes : Bytes} {kind : κ} {d : Delimiters}
    {f : Frame} (hm : (kind, d) ∈ kinds) (hf : d.frame? bytes = some f) : ∃ span, earliest? kinds bytes = some span := by
  cases h : earliest? kinds bytes with
  | some span => exact ⟨span, rfl⟩
  | none =>
    rw [frame?_of_earliest?_eq_none h hm] at hf
    cases hf

/-- What stands in front of the earliest span holds no span of any kind. -/
theorem not_hasSpan_of_minimal {d : Delimiters} {dropped bytes : Bytes} (hopening : d.opening ≠ []) (hclosing : d.closing ≠ [])
    (hp : dropped <+: bytes) (hmin : ∀ f, d.frame? bytes = some f → dropped.length ≤ f.dropped.length) :
    ¬d.HasSpan dropped := by
  intro h
  obtain ⟨more, rfl⟩ := hp
  obtain ⟨f, hf⟩ := Delimiters.exists_frame?_of_hasSpan hopening hclosing h
  have hle := hmin _ (Delimiters.frame?_append more hf)
  obtain ⟨_, _, hb, content, hs⟩ := Delimiters.eq_of_frame? hf
  have hlen := congrArg List.length hb
  have hpos := List.length_pos_iff.mpr hopening
  simp only [hs, List.length_append] at hlen hle
  omega

end StreamAuth
