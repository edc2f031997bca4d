import StreamAuth.Proofs.Answers

/-!
# Framed streams

A stream is framed when its stanzas come one after the other, with gaps between them in which no stanza begins, and none inside
another. An opening delimiter has its only `<` in front and no `>`, and a stanza begins with the one and ends with the other, so
no opening delimiter reaches over the border of a stanza. That is why the stanza that is taken next can be told from the stream:
it is the first one of a kind that is watched for, however much of the stream has arrived behind it.
-/

namespace StreamAuth

open Session (watched)

/-! ## Borders -/

/-- A needle with its only less-than sign in front is not parted in front of a less-than sign. -/
theorem cons_ne_append_of_lt {name front back after : Bytes} (hn : 60 ∉ name) (hf : front ≠ []) (hb : back ≠ [])
    (hp : back <+: after) (hafter : [60] <+: after) : 60 :: name ≠ front ++ back := by
  intro h
  obtain ⟨b, front, rfl⟩ := List.exists_cons_of_ne_nil hf
  have hback : [60] <+: back := List.prefix_of_prefix_length_le hafter hp (List.length_pos_iff.mpr hb)
  refine hn ?_
  rw [(List.cons.inj h).2]
  exact List.mem_append_right _ (hback.subset List.mem_cons_self)

/-- A needle with its only less-than sign in front does not reach over a border that has one behind it. -/
theorem not_infix_append_of_lt {name before after : Bytes} (hn : 60 ∉ name) (hb : ¬60 :: name <:+: before)
    (ha : ¬60 :: name <:+: after) (h : [60] <+: after) : ¬60 :: name <:+: before ++ after := by
  intro hin
  rcases List.infix_append_iff_ne_nil.mp hin with hin | hin | ⟨front, back, hf, hk, hneedle, _, hp⟩
  · exact hb hin
  · exact ha hin
  · exact cons_ne_append_of_lt hn hf hk hp h hneedle

namespace SpanKind

/-! ## Delimiters -/

/-- An opening delimiter has its only less-than sign in front. -/
theorem opening_eq_cons (kind : SpanKind) : ∃ name, kind.delimiters.opening = 60 :: name ∧ 60 ∉ name := by
  refine ⟨kind.delimiters.opening.tail, ?_⟩
  cases kind <;> decide

/-- An opening delimiter has no greater-than sign. -/
theorem not_mem_opening (kind : SpanKind) : 62 ∉ kind.delimiters.opening := by
  cases kind <;> decide

/-- A closing delimiter has its only less-than sign in front. -/
theorem closing_eq_cons (kind : SpanKind) : ∃ name, kind.delimiters.closing = 60 :: name ∧ 60 ∉ name := by
  refine ⟨kind.delimiters.closing.tail, ?_⟩
  cases kind <;> decide

/-- A closing delimiter ends with a greater-than sign. -/
theorem suffix_closing (kind : SpanKind) : [62] <:+ kind.delimiters.closing := by
  cases kind <;> decide

/-- No opening delimiter begins another one. -/
theorem eq_of_opening_prefix_opening {kind other : SpanKind} (h : kind.delimiters.opening <+: other.delimiters.opening) :
    kind = other := by
  revert h
  cases kind <;> cases other <;> decide

/-- The opening delimiter tells the kind of what it begins. -/
theorem eq_of_openings {kind other : SpanKind} {bytes : Bytes} (h : kind.delimiters.opening <+: bytes)
    (ho : other.delimiters.opening <+: bytes) : kind = other := by
  rcases List.prefix_or_prefix_of_prefix h ho with hp | hp
  · exact eq_of_opening_prefix_opening hp
  · exact (eq_of_opening_prefix_opening hp).symm

/-- An opening delimiter is not parted in front of a less-than sign. -/
theorem opening_ne_append {kind : SpanKind} {front back after : Bytes} (hf : front ≠ []) (hb : back ≠ []) (hp : back <+: after)
    (hafter : [60] <+: after) : kind.delimiters.opening ≠ front ++ back := by
  obtain ⟨name, hname, hn⟩ := opening_eq_cons kind
  rw [hname]
  exact cons_ne_append_of_lt hn hf hb hp hafter

/-- An opening delimiter does not begin with the end of something that ends with a greater-than sign. -/
theorem not_prefix_opening {kind : SpanKind} {front before : Bytes} (hf : front ≠ []) (hs : front <:+ before)
    (hbefore : [62] <:+ before) : ¬front <+: kind.delimiters.opening := by
  intro h
  have hfront : [62] <:+ front := List.suffix_of_suffix_length_le hbefore hs (List.length_pos_iff.mpr hf)
  exact not_mem_opening kind (h.subset (hfront.subset List.mem_cons_self))

/-- No opening delimiter reaches over a border that has a less-than sign behind it or a greater-than sign in front of it. -/
theorem not_opening_infix_append {kind : SpanKind} {before after : Bytes} (hb : ¬kind.delimiters.opening <:+: before)
    (ha : ¬kind.delimiters.opening <:+: after) (h : [60] <+: after ∨ [62] <:+ before) :
    ¬kind.delimiters.opening <:+: before ++ after := by
  intro hin
  rcases List.infix_append_iff_ne_nil.mp hin with hin | hin | ⟨front, back, hf, hk, hopening, hs, hp⟩
  · exact hb hin
  · exact ha hin
  · rcases h with h | h
    · exact opening_ne_append hf hk hp h hopening
    · exact not_prefix_opening hf hs h ⟨back, hopening.symm⟩

/-- What the opening delimiter begins and nothing ends is a span with the closing delimiter behind it. -/
theorem encloses_append_closing {kind : SpanKind} {bytes : Bytes} (ho : kind.delimiters.opening <+: bytes)
    (hc : ¬kind.delimiters.closing <:+: bytes) : kind.delimiters.Encloses (bytes ++ kind.delimiters.closing) := by
  obtain ⟨body, rfl⟩ := ho
  refine ⟨body ++ kind.delimiters.closing, by simp, List.suffix_append _ _, ?_⟩
  have hlt : [60] <+: kind.delimiters.closing.dropLast := by cases kind <;> decide
  have hbody : ¬kind.delimiters.closing <:+: body := fun hin => hc (hin.trans (List.suffix_append _ _).isInfix)
  have hself := (endsAtFirst_self kind.closing_ne_nil).2
  obtain ⟨name, hname, hn⟩ := closing_eq_cons kind
  rw [List.dropLast_append_of_ne_nil kind.closing_ne_nil]
  rw [hname] at hbody hself hlt ⊢
  exact not_infix_append_of_lt hn hbody hself hlt

/-- What begins in front of a border has some of the bytes in front of the border still before it. -/
theorem exists_prefix_append_of_length_lt {dropped begun front after : Bytes} (h : dropped ++ begun <+: front ++ after)
    (hlt : dropped.length < front.length) : ∃ more, more ≠ [] ∧ front = dropped ++ more ∧ begun <+: more ++ after := by
  have hdropped : dropped <+: front :=
    List.prefix_of_prefix_length_le ((List.prefix_append _ _).trans h) (List.prefix_append _ _) (Nat.le_of_lt hlt)
  obtain ⟨more, rfl⟩ := hdropped
  rw [List.append_assoc, List.prefix_append_right_inj] at h
  refine ⟨more, ?_, rfl, h⟩
  rintro rfl
  simp at hlt

/-- What begins behind a border that has a less-than sign behind it does not begin in front of it, if nothing does. -/
theorem length_le_of_opening {kind : SpanKind} {gap after dropped : Bytes} (hgap : ¬kind.delimiters.opening <:+: gap)
    (hafter : [60] <+: after) (h : dropped ++ kind.delimiters.opening <+: gap ++ after) : gap.length ≤ dropped.length := by
  refine Nat.le_of_not_lt fun hlt => ?_
  obtain ⟨more, hmore, rfl, hbegun⟩ := exists_prefix_append_of_length_lt h hlt
  rcases List.prefix_or_prefix_of_prefix hbegun (List.prefix_append more after) with hp | ⟨back, hback⟩
  · exact hgap (hp.isInfix.trans (List.suffix_append dropped more).isInfix)
  · rw [← hback, List.prefix_append_right_inj] at hbegun
    by_cases hb : back = []
    · refine hgap ?_
      rw [← hback, hb, List.append_nil]
      exact (List.suffix_append dropped more).isInfix
    · exact opening_ne_append hmore hb hbegun hafter hback.symm

/-! ## Stanzas -/

/-- Only one stanza begins in the bytes: one of the kind, at their front. -/
structure Begins (kind : SpanKind) (bytes : Bytes) : Prop where
  opening : kind.delimiters.opening <+: bytes
  alone : ∀ other : SpanKind, ¬other.delimiters.opening <:+: bytes.tail

/-- A stanza of the kind, with no other one in it. -/
structure IsStanza (kind : SpanKind) (bytes : Bytes) : Prop where
  encloses : kind.delimiters.Encloses bytes
  alone : ∀ other : SpanKind, ¬other.delimiters.opening <:+: bytes.tail

/-- The beginning of a stanza of the kind, with no other one in it and no end. -/
structure IsUnfinished (kind : SpanKind) (bytes : Bytes) : Prop where
  unended : ∃ body, bytes = kind.delimiters.opening ++ body ∧ ¬kind.delimiters.closing <:+: body
  alone : ∀ other : SpanKind, ¬other.delimiters.opening <:+: bytes.tail

theorem IsStanza.begins {kind : SpanKind} {bytes : Bytes} (h : kind.IsStanza bytes) : kind.Begins bytes := by
  obtain ⟨body, rfl, _⟩ := h.encloses
  exact ⟨List.prefix_append _ _, h.alone⟩

theorem IsUnfinished.begins {kind : SpanKind} {bytes : Bytes} (h : kind.IsUnfinished bytes) : kind.Begins bytes := by
  obtain ⟨body, rfl, _⟩ := h.unended
  exact ⟨List.prefix_append _ _, h.alone⟩

theorem Begins.lt {kind : SpanKind} {bytes : Bytes} (h : kind.Begins bytes) : [60] <+: bytes := by
  obtain ⟨name, hname, _⟩ := opening_eq_cons kind
  exact List.IsPrefix.trans ⟨name, hname.symm⟩ h.opening

theorem Begins.ne_nil {kind : SpanKind} {bytes : Bytes} (h : kind.Begins bytes) : bytes ≠ [] :=
  fun hb => List.cons_ne_nil _ _ (List.prefix_nil.mp (hb ▸ h.lt))

theorem IsStanza.gt {kind : SpanKind} {bytes : Bytes} (h : kind.IsStanza bytes) : [62] <:+ bytes := by
  obtain ⟨body, rfl, hlast⟩ := h.encloses
  exact (suffix_closing kind).trans (hlast.1.trans (List.suffix_append _ _))

/-- Nothing begins behind the front of what begins alone. -/
theorem Begins.not_infix_of_append {kind other : SpanKind} {front back : Bytes} (h : kind.Begins (front ++ back))
    (hf : front ≠ []) : ¬other.delimiters.opening <:+: back := by
  intro hin
  obtain ⟨b, front, rfl⟩ := List.exists_cons_of_ne_nil hf
  exact h.alone other (hin.trans (List.suffix_append front back).isInfix)

/-- A kind that is not the one that begins does not begin anywhere. -/
theorem Begins.not_infix_of_ne {kind other : SpanKind} {bytes : Bytes} (h : kind.Begins bytes) (hne : other ≠ kind) :
    ¬other.delimiters.opening <:+: bytes := by
  intro hin
  obtain ⟨b, rest, rfl⟩ := List.exists_cons_of_ne_nil h.ne_nil
  rcases List.infix_cons_iff.mp hin with hp | hin
  · exact hne (eq_of_openings hp h.opening)
  · exact h.alone other hin

/-- What begins behind the front of a stanza begins behind its end. -/
theorem IsStanza.length_le_of_opening {kind other : SpanKind} {bytes after dropped : Bytes} (h : kind.IsStanza bytes)
    (hd : dropped ≠ []) (hp : dropped ++ other.delimiters.opening <+: bytes ++ after) : bytes.length ≤ dropped.length := by
  refine Nat.le_of_not_lt fun hlt => ?_
  obtain ⟨more, hmore, rfl, hbegun⟩ := exists_prefix_append_of_length_lt hp hlt
  rcases List.prefix_or_prefix_of_prefix hbegun (List.prefix_append more after) with hin | hin
  · exact h.begins.not_infix_of_append hd hin.isInfix
  · exact not_prefix_opening hmore (List.suffix_append _ _) h.gt hin

end SpanKind

/-- No stanza of any kind begins in the bytes. -/
def Silent (bytes : Bytes) : Prop :=
  ∀ kind : SpanKind, ¬kind.delimiters.opening <:+: bytes

/-- A stanza in a stream, and the gap behind it. -/
structure Arrival where
  /-- The kind of the stanza. -/
  kind : SpanKind
  /-- The bytes of the stanza. -/
  stanza : Bytes
  /-- The bytes up to the next stanza. -/
  gap : Bytes
  isStanza : kind.IsStanza stanza
  silent : Silent gap

/-- The bytes of a stanza and of the gap behind it. -/
def Arrival.bytes (x : Arrival) : Bytes :=
  x.stanza ++ x.gap

/-- A stream in which one stanza comes after the other, and which may end inside one. -/
structure FramedStream where
  /-- The bytes in front of the first stanza. -/
  lead : Bytes
  /-- The stanzas. -/
  arrivals : List Arrival
  /-- The stanza that has not ended, if there is one. -/
  tail : Bytes
  silent : Silent lead
  unfinished : tail = [] ∨ ∃ kind : SpanKind, kind.IsUnfinished tail

/-- The bytes of a framed stream. -/
def FramedStream.bytes (s : FramedStream) : Bytes :=
  s.lead ++ s.arrivals.flatMap Arrival.bytes ++ s.tail

/-! ## What is taken from a framed stream -/

namespace Phase

/-- No stanza that is watched for begins in the bytes. -/
def Idle (phase : Phase) (bytes : Bytes) : Prop :=
  ∀ kind ∈ watched phase, ¬kind.delimiters.opening <:+: bytes

variable {phase : Phase} {kind : SpanKind} {gap stanza after : Bytes}

theorem Idle.of_silent (h : Silent gap) : phase.Idle gap :=
  fun kind _ => h kind

/-- A stanza that is not watched for does not end idleness, and neither does the gap behind it. -/
theorem Idle.append_stanza (h : phase.Idle gap) (hs : kind.IsStanza stanza) (hk : kind ∉ watched phase)
    (ha : Silent after) : phase.Idle (gap ++ stanza ++ after) := by
  intro other ho
  have hne : other ≠ kind := fun he => hk (he ▸ ho)
  have hstanza := SpanKind.not_opening_infix_append (h other ho) (hs.begins.not_infix_of_ne hne) (Or.inl hs.begins.lt)
  exact SpanKind.not_opening_infix_append hstanza (ha other) (Or.inr (hs.gt.trans (List.suffix_append _ _)))

/-- Behind idle bytes, what is watched for begins where the stanza there begins, or behind its end. -/
theorem Idle.position (h : phase.Idle gap) (hs : kind.IsStanza stanza) {other : SpanKind} (ho : other ∈ watched phase)
    {f : Frame} (hf : other.delimiters.frame? (gap ++ stanza ++ after) = some f) :
    (f.dropped = gap ∧ other = kind) ∨ (gap ++ stanza).length ≤ f.dropped.length := by
  obtain ⟨_, _, hb, content, hspan⟩ := Delimiters.eq_of_frame? hf
  have hp : f.dropped ++ other.delimiters.opening <+: gap ++ (stanza ++ after) :=
    ⟨content ++ other.delimiters.closing ++ f.rest, by rw [← List.append_assoc gap, hb, hspan]; simp⟩
  have hle := SpanKind.length_le_of_opening (h other ho) (hs.begins.lt.trans (List.prefix_append _ _)) hp
  have hgap : gap <+: f.dropped :=
    List.prefix_of_prefix_length_le (List.prefix_append _ _) ((List.prefix_append _ _).trans hp) hle
  obtain ⟨more, hmore⟩ := hgap
  rw [← hmore, List.append_assoc, List.prefix_append_right_inj] at hp
  by_cases hn : more = []
  · left
    rw [hn, List.nil_append] at hp
    refine ⟨by rw [← hmore, hn, List.append_nil], ?_⟩
    exact SpanKind.eq_of_openings hp (hs.begins.opening.trans (List.prefix_append _ _))
  · right
    rw [← hmore, List.length_append, List.length_append]
    exact Nat.add_le_add_left (hs.length_le_of_opening hn hp) _

/-- Behind idle bytes, the opening delimiter of a kind that is watched for stands for the first time. -/
theorem Idle.endsAtFirst (h : phase.Idle gap) (hk : kind ∈ watched phase) :
    EndsAtFirst kind.delimiters.opening (gap ++ kind.delimiters.opening) := by
  have hfront : [60] <+: kind.delimiters.opening.dropLast ∧ kind.delimiters.opening ≠ [] := by cases kind <;> decide
  refine ⟨List.suffix_append _ _, ?_⟩
  rw [List.dropLast_append_of_ne_nil hfront.2]
  refine SpanKind.not_opening_infix_append (h kind hk) (fun hin => ?_) (Or.inl hfront.1)
  have hlen := hin.length_le
  have hpos := List.length_pos_iff.mpr hfront.2
  rw [List.length_dropLast] at hlen
  omega

/-- Behind idle bytes, a stanza is the frame of its kind. -/
theorem Idle.frame? (h : phase.Idle gap) (hs : kind.IsStanza stanza) (hk : kind ∈ watched phase) (after : Bytes) :
    kind.delimiters.frame? (gap ++ stanza ++ after) = some ⟨gap, stanza, after⟩ :=
  Delimiters.frame?_eq_some_iff.mpr ⟨kind.opening_ne_nil, kind.closing_ne_nil, rfl, h.endsAtFirst hk, hs.encloses⟩

/-- Behind idle bytes, it is a stanza that is watched for that is taken first, however much has arrived behind it. -/
theorem Idle.kind_of_firstSpan? (h : phase.Idle gap) (hs : kind.IsStanza stanza) (hk : kind ∈ watched phase)
    {arrived : Bytes} (hp : arrived <+: gap ++ stanza ++ after) {early : Span SpanKind}
    (he : phase.firstSpan? arrived = some early) : early.kind = kind := by
  obtain ⟨hek, dropped, hf, hmin⟩ := frame?_of_firstSpan? he
  obtain ⟨more, hmore⟩ := hp
  have hwhole := Delimiters.frame?_append more hf
  rw [hmore] at hwhole
  rcases h.position hs hek hwhole with ⟨_, hkind⟩ | hle
  · exact hkind
  · -- Then the stanza has arrived in front of what is taken, and would be taken itself.
    obtain ⟨_, _, hb, _⟩ := Delimiters.eq_of_frame? hf
    have hgap : gap ++ stanza <+: arrived := by
      refine List.prefix_of_prefix_length_le (List.prefix_append _ after) ⟨more, hmore⟩ (Nat.le_trans hle ?_)
      rw [hb, List.append_assoc, List.length_append]
      exact Nat.le_add_right _ _
    obtain ⟨rest, rfl⟩ := hgap
    have hfirst := hmin kind hk _ (h.frame? hs hk rest)
    have hpos := List.length_pos_iff.mpr hs.begins.ne_nil
    simp only [List.length_append] at hle hfirst
    omega

/-- Behind idle bytes, a stanza that is watched for is taken. -/
theorem Idle.firstSpan? (h : phase.Idle gap) (hs : kind.IsStanza stanza) (hk : kind ∈ watched phase) (after : Bytes) :
    phase.firstSpan? (gap ++ stanza ++ after) = some ⟨kind, stanza, after⟩ := by
  obtain ⟨span, hspan⟩ := exists_firstSpan? hk (h.frame? hs hk after)
  have hkind := h.kind_of_firstSpan? hs hk (List.prefix_refl _) hspan
  obtain ⟨_, dropped, hf, _⟩ := frame?_of_firstSpan? hspan
  rw [hkind, h.frame? hs hk after] at hf
  obtain ⟨_, hbytes, hrest⟩ := Frame.mk.inj (Option.some.inj hf)
  rw [hspan, hbytes, hrest, ← hkind]

/-- A frame begins with the opening delimiter of its kind. -/
theorem opening_infix_of_frame? {bytes : Bytes} {f : Frame} (h : kind.delimiters.frame? bytes = some f) :
    kind.delimiters.opening <:+: bytes := by
  obtain ⟨_, _, hb, content, hspan⟩ := Delimiters.eq_of_frame? h
  exact ⟨f.dropped, content ++ kind.delimiters.closing ++ f.rest, by rw [hb, hspan]; simp⟩

/-- Nothing is taken from idle bytes. -/
theorem Idle.firstSpan?_eq_none (h : phase.Idle gap) : phase.firstSpan? gap = none := by
  refine Option.eq_none_iff_forall_not_mem.mpr fun span hspan => ?_
  obtain ⟨hk, _, hf, _⟩ := frame?_of_firstSpan? hspan
  exact h _ hk (opening_infix_of_frame? hf)

/-- Behind idle bytes, nothing is taken from a stanza that has not ended. -/
theorem Idle.firstSpan?_unfinished (h : phase.Idle gap) (hu : kind.IsUnfinished after) :
    phase.firstSpan? (gap ++ after) = none := by
  refine Option.eq_none_iff_forall_not_mem.mpr fun span hspan => ?_
  obtain ⟨hk, _, hf, _⟩ := frame?_of_firstSpan? hspan
  by_cases hkind : span.kind = kind
  · rw [hkind] at hk hf
    obtain ⟨body, rfl, hbody⟩ := hu.unended
    have ho : cut? kind.delimiters.opening (gap ++ (kind.delimiters.opening ++ body)) = some (gap, body) :=
      cut?_eq_some_iff.mpr ⟨kind.opening_ne_nil, by rw [List.append_assoc], h.endsAtFirst hk⟩
    have hc := cut?_eq_none_iff.mpr (Or.inr hbody)
    simp only [Delimiters.frame?, ho, hc, reduceCtorEq] at hf
  · exact SpanKind.not_opening_infix_append (h _ hk) (hu.begins.not_infix_of_ne hkind) (Or.inl hu.begins.lt)
      (opening_infix_of_frame? hf)

end Phase

end StreamAuth
