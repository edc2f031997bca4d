import StreamAuth.Proofs.Answers

/-!
# Reading a stream at once and in pieces

`Phase.read` says what a byte string brings about when all of it is there, and `Phase.readPieces` what it brings about when it
arrives in pieces, each read as far as it goes. The two need not agree: a stanza that begins early and ends late is overtaken by
one that lies inside it, if the bytes are cut between the two ends. `Unambiguous` says that nothing of that kind shows, and then
the pieces do not matter (`readPieces_eq_read`).
-/

namespace StreamAuth

open Session (watched)

/-- What a byte string brings about. -/
structure Reading where
  /-- What its stanzas were answered with, in order. -/
  answers : List Answer
  /-- The error that a stanza ended it with, if one did. -/
  error? : Option Error
  /-- What is waited for afterwards. -/
  phase : Phase
  /-- The bytes that no stanza has used up. -/
  unread : Bytes
  deriving DecidableEq

namespace Reading

/-- A reading with more answers in front of it. -/
def following (answers : List Answer) (r : Reading) : Reading :=
  { r with answers := answers ++ r.answers }

/-- A reading that goes on with another one unless it has ended on an error. -/
def andThen (r : Reading) (next : Phase → Bytes → Reading) : Reading :=
  match r.error? with
  | some _ => r
  | none => (next r.phase r.unread).following r.answers

@[simp] theorem following_nil (r : Reading) : r.following [] = r := rfl

@[simp] theorem following_following (as bs : List Answer) (r : Reading) :
    (r.following bs).following as = r.following (as ++ bs) := by
  simp [following]

@[simp] theorem error?_following (as : List Answer) (r : Reading) : (r.following as).error? = r.error? := rfl

@[simp] theorem phase_following (as : List Answer) (r : Reading) : (r.following as).phase = r.phase := rfl

@[simp] theorem unread_following (as : List Answer) (r : Reading) : (r.following as).unread = r.unread := rfl

@[simp] theorem answers_following (as : List Answer) (r : Reading) : (r.following as).answers = as ++ r.answers := rfl

@[simp] theorem andThen_following (as : List Answer) (r : Reading) (next : Phase → Bytes → Reading) :
    (r.following as).andThen next = (r.andThen next).following as := by
  unfold andThen
  cases h : r.error? <;> simp [h]

end Reading

namespace Phase

/-! ## Reading at once -/

/-- Reads a byte string that is all there: takes the span that begins first, answers it, and goes on with what follows it. -/
def read (phase : Phase) (bytes : Bytes) : Reading :=
  match _h : phase.firstSpan? bytes with
  | none => ⟨[], none, phase, bytes⟩
  | some span =>
    match span.kind.answer span.bytes with
    | .error e => ⟨[], some e, .closed, []⟩
    | .ok a => (read .awaitingChallenge span.rest).following [a]
termination_by bytes.length
decreasing_by exact length_rest_lt _h

theorem read_of_none {phase : Phase} {bytes : Bytes} (h : phase.firstSpan? bytes = none) :
    phase.read bytes = ⟨[], none, phase, bytes⟩ := by
  rw [read]
  split
  · rfl
  · rename_i hs
    rw [h] at hs
    cases hs

theorem read_of_error {phase : Phase} {bytes : Bytes} {span : Span SpanKind} {e : Error}
    (h : phase.firstSpan? bytes = some span) (ha : span.kind.answer span.bytes = .error e) :
    phase.read bytes = ⟨[], some e, .closed, []⟩ := by
  rw [read]
  split
  · rename_i hs
    rw [h] at hs
    cases hs
  · rename_i hs
    cases h.symm.trans hs
    simp only [ha]

theorem read_of_ok {phase : Phase} {bytes : Bytes} {span : Span SpanKind} {a : Answer}
    (h : phase.firstSpan? bytes = some span) (ha : span.kind.answer span.bytes = .ok a) :
    phase.read bytes = (Phase.awaitingChallenge.read span.rest).following [a] := by
  rw [read]
  split
  · rename_i hs
    rw [h] at hs
    cases hs
  · rename_i hs
    cases h.symm.trans hs
    simp only [ha]

/-- Nothing can be taken from what a reading leaves unread. -/
theorem firstSpan?_unread (phase : Phase) (bytes : Bytes) :
    (phase.read bytes).error? = none → (phase.read bytes).phase.firstSpan? (phase.read bytes).unread = none := by
  induction phase, bytes using read.induct with
  | case1 phase bytes h =>
    intro _
    rw [read_of_none h]
    exact h
  | case2 phase bytes span h e ha =>
    intro he
    rw [read_of_error h ha] at he
    cases he
  | case3 phase bytes span h a ha ih =>
    intro he
    rw [read_of_ok h ha] at he ⊢
    exact ih he

/-- A reading that ends on an error closes, and leaves nothing unread. -/
theorem closed_of_read_error (phase : Phase) (bytes : Bytes) :
    (phase.read bytes).error? ≠ none → (phase.read bytes).phase = .closed ∧ (phase.read bytes).unread = [] := by
  induction phase, bytes using read.induct with
  | case1 phase bytes h =>
    intro he
    rw [read_of_none h] at he
    exact absurd rfl he
  | case2 phase bytes span h e ha =>
    intro _
    rw [read_of_error h ha]
    exact ⟨rfl, rfl⟩
  | case3 phase bytes span h a ha ih =>
    intro he
    rw [read_of_ok h ha] at he ⊢
    exact ih he

/-! ## Reading in pieces -/

/-- Reads bytes that arrive in pieces, behind some that have arrived before. -/
def readPieces (phase : Phase) (unread : Bytes) : List Bytes → Reading
  | [] => ⟨[], none, phase, unread⟩
  | piece :: pieces => (phase.read (unread ++ piece)).andThen fun phase unread => readPieces phase unread pieces

/-- A piece that is read with an error ends the reading. -/
theorem readPieces_cons_of_error {phase : Phase} {unread piece : Bytes} {e : Error}
    (he : (phase.read (unread ++ piece)).error? = some e) (pieces : List Bytes) :
    phase.readPieces unread (piece :: pieces) = phase.read (unread ++ piece) := by
  rw [readPieces, Reading.andThen, he]

/-- A piece that is read without an error leads on to the next one. -/
theorem readPieces_cons_of_ok {phase : Phase} {unread piece : Bytes} (he : (phase.read (unread ++ piece)).error? = none)
    (pieces : List Bytes) :
    phase.readPieces unread (piece :: pieces) =
      ((phase.read (unread ++ piece)).phase.readPieces (phase.read (unread ++ piece)).unread pieces).following
        (phase.read (unread ++ piece)).answers := by
  rw [readPieces, Reading.andThen, he]

/-- A stream of which nothing is taken differently, wherever it is cut. Either nothing is taken from it at all; or the span that
is taken next is answered like each span that would be taken next had only some of the bytes arrived, and what follows it, if it
is not fatal, is not ambiguous either. -/
inductive Unambiguous : Phase → Bytes → Prop where
  | quiet {phase : Phase} {stream : Bytes} : phase.firstSpan? stream = none → Unambiguous phase stream
  | taken {phase : Phase} {stream : Bytes} {span : Span SpanKind} :
      phase.firstSpan? stream = some span →
      (∀ arrived early, arrived <+: stream → phase.firstSpan? arrived = some early →
        early.kind.answer early.bytes = span.kind.answer span.bytes) →
      (∀ a, span.kind.answer span.bytes = .ok a → Unambiguous .awaitingChallenge span.rest) →
      Unambiguous phase stream

theorem Unambiguous.answer_eq {phase : Phase} {bytes more : Bytes} {early span : Span SpanKind}
    (h : Unambiguous phase (bytes ++ more)) (he : phase.firstSpan? bytes = some early)
    (hs : phase.firstSpan? (bytes ++ more) = some span) :
    early.kind.answer early.bytes = span.kind.answer span.bytes := by
  cases h with
  | quiet hq =>
    rw [hq] at hs
    cases hs
  | taken ht hagree _ =>
    cases ht.symm.trans hs
    exact hagree bytes early (List.prefix_append _ _) he

theorem Unambiguous.rest {phase : Phase} {stream : Bytes} {span : Span SpanKind} {a : Answer}
    (h : Unambiguous phase stream) (hs : phase.firstSpan? stream = some span)
    (ha : span.kind.answer span.bytes = .ok a) : Unambiguous .awaitingChallenge span.rest := by
  cases h with
  | quiet hq =>
    rw [hq] at hs
    cases hs
  | taken ht _ hrest =>
    cases ht.symm.trans hs
    exact hrest a ha

/-- A stream that is not ambiguous is read as its first bytes are, and then on from where they have led. -/
theorem read_append {more : Bytes} (phase : Phase) (bytes : Bytes) :
    Unambiguous phase (bytes ++ more) →
      phase.read (bytes ++ more) = (phase.read bytes).andThen (fun phase unread => phase.read (unread ++ more)) ∧
        ((phase.read bytes).error? = none → Unambiguous (phase.read bytes).phase ((phase.read bytes).unread ++ more)) := by
  induction phase, bytes using read.induct with
  | case1 phase bytes h =>
    intro hu
    rw [read_of_none h]
    exact ⟨rfl, fun _ => hu⟩
  | case2 phase bytes early h e ha =>
    intro hu
    obtain ⟨span, hs⟩ := exists_firstSpan?_append more h
    rw [read_of_error h ha, read_of_error hs ((hu.answer_eq h hs).symm.trans ha)]
    exact ⟨rfl, nofun⟩
  | case3 phase bytes early h a ha ih =>
    intro hu
    obtain ⟨span, hs⟩ := exists_firstSpan?_append more h
    have ha' := (hu.answer_eq h hs).symm.trans ha
    -- An answer betrays the kind of its span, and spans of one kind do not move.
    have hkind := SpanKind.kind_eq_of_answer ha ha'
    obtain ⟨_, hrest⟩ := firstSpan?_append_of_kind h hs hkind
    have hu' := hu.rest hs ha'
    rw [hrest] at hu'
    rw [read_of_ok h ha, read_of_ok hs ha', hrest, (ih hu').1, Reading.andThen_following]
    exact ⟨rfl, (ih hu').2⟩

/-- The pieces in which a stream that is not ambiguous arrives do not matter. -/
theorem readPieces_eq_read (pieces : List Bytes) {phase : Phase} {unread : Bytes} (hq : phase.firstSpan? unread = none)
    (hu : Unambiguous phase (unread ++ pieces.flatten)) :
    phase.readPieces unread pieces = phase.read (unread ++ pieces.flatten) := by
  induction pieces generalizing phase unread with
  | nil =>
    rw [List.flatten_nil, List.append_nil, read_of_none hq]
    rfl
  | cons piece pieces ih =>
    rw [List.flatten_cons, ← List.append_assoc] at hu ⊢
    obtain ⟨hread, hrest⟩ := read_append phase (unread ++ piece) hu
    rw [hread, readPieces]
    unfold Reading.andThen
    cases he : (phase.read (unread ++ piece)).error? with
    | some e => rfl
    | none =>
      simp only
      rw [ih (firstSpan?_unread phase _ he) (hrest he)]

/-- The pieces in which a stream arrives do not matter from its beginning on, if it is not ambiguous. -/
theorem readPieces_eq_read_of_flatten {stream : Bytes} {pieces : List Bytes} (h : pieces.flatten = stream)
    (hu : Unambiguous .awaitingFeatures stream) :
    Phase.awaitingFeatures.readPieces [] pieces = Phase.awaitingFeatures.read stream := by
  subst h
  exact readPieces_eq_read pieces rfl hu

/-! ## The order of answers -/

/-- While challenges are awaited, a reading answers with challenges, and unless it ends on an error they are still awaited after
it. -/
theorem answers_read_awaitingChallenge (bytes : Bytes) :
    ∃ challenges : List Challenge, (Phase.awaitingChallenge.read bytes).answers = challenges.map .pass ∧
      ((Phase.awaitingChallenge.read bytes).error? = none →
        (Phase.awaitingChallenge.read bytes).phase = .awaitingChallenge) := by
  generalize hp : Phase.awaitingChallenge = phase
  induction phase, bytes using read.induct with
  | case1 phase bytes h =>
    rw [read_of_none h]
    exact ⟨[], rfl, fun _ => hp ▸ rfl⟩
  | case2 phase bytes span h e ha =>
    rw [read_of_error h ha]
    exact ⟨[], rfl, nofun⟩
  | case3 phase bytes span h a ha ih =>
    obtain ⟨hk, _⟩ := frame?_of_firstSpan? h
    rcases answer_of_watched hk ha with ⟨hc, _⟩ | ⟨_, _, c, rfl⟩
    · cases hp.trans hc
    · obtain ⟨challenges, hanswers, hphase⟩ := ih rfl
      rw [read_of_ok h ha]
      exact ⟨c :: challenges, by rw [Reading.answers_following, hanswers]; rfl, fun he => hp ▸ hphase he⟩

/-- A reading that answers anything answers with challenges from its second answer on, and awaits challenges after that. While
features are awaited, the first answer is an announcement. -/
theorem answers_read (phase : Phase) (bytes : Bytes) :
    (phase.read bytes).answers = [] ∨
      ∃ (a : Answer) (challenges : List Challenge), (phase.read bytes).answers = a :: challenges.map .pass ∧
        (phase = .awaitingFeatures → ∃ m, a = .announce m) ∧
        ((phase.read bytes).error? = none → (phase.read bytes).phase = .awaitingChallenge) := by
  cases h : phase.firstSpan? bytes with
  | none => exact Or.inl (by rw [read_of_none h])
  | some span =>
    cases ha : span.kind.answer span.bytes with
    | error e => exact Or.inl (by rw [read_of_error h ha])
    | ok a =>
      obtain ⟨challenges, hanswers, hphase⟩ := answers_read_awaitingChallenge span.rest
      rw [read_of_ok h ha]
      refine Or.inr ⟨a, challenges, by rw [Reading.answers_following, hanswers]; rfl, fun hp => ?_, hphase⟩
      rcases answer_of_watched (frame?_of_firstSpan? h).1 ha with ⟨_, _, m, _, rfl⟩ | ⟨hc, _⟩
      · exact ⟨m, rfl⟩
      · cases hp.symm.trans hc

/-- While challenges are awaited, pieces are answered with challenges. -/
theorem answers_readPieces_awaitingChallenge (pieces : List Bytes) (unread : Bytes) :
    ∃ challenges : List Challenge, (Phase.awaitingChallenge.readPieces unread pieces).answers = challenges.map .pass := by
  induction pieces generalizing unread with
  | nil => exact ⟨[], rfl⟩
  | cons piece pieces ih =>
    obtain ⟨challenges, hanswers, hphase⟩ := answers_read_awaitingChallenge (unread ++ piece)
    cases he : (Phase.awaitingChallenge.read (unread ++ piece)).error? with
    | some e =>
      rw [readPieces_cons_of_error he]
      exact ⟨challenges, hanswers⟩
    | none =>
      obtain ⟨more, hmore⟩ := ih (Phase.awaitingChallenge.read (unread ++ piece)).unread
      rw [readPieces_cons_of_ok he, hphase he, Reading.answers_following, hanswers, hmore]
      exact ⟨challenges ++ more, List.map_append.symm⟩

/-! ## Reading byte by byte -/

/-- A span that only the last byte completes ends with it. -/
theorem rest_eq_nil_of_last {phase : Phase} {unread : Bytes} {b : UInt8} {span : Span SpanKind}
    (hq : phase.firstSpan? unread = none) (hs : phase.firstSpan? (unread ++ [b]) = some span) : span.rest = [] := by
  obtain ⟨hk, dropped, hf, _⟩ := frame?_of_firstSpan? hs
  obtain ⟨hopening, hclosing, hb, hfirst, henc⟩ := Delimiters.frame?_eq_some_iff.mp hf
  rcases List.eq_nil_or_concat span.rest with hnil | ⟨init, last, hrest⟩
  · exact hnil
  · -- Otherwise it is complete without the last byte.
    have hb : unread ++ [b] = (dropped ++ span.bytes ++ init) ++ [last] := by
      rw [hb]
      simp [hrest]
    obtain ⟨early, he⟩ := exists_firstSpan? (f := ⟨dropped, span.bytes, init⟩) hk
      (Delimiters.frame?_eq_some_iff.mpr ⟨hopening, hclosing, (List.append_inj' hb rfl).1, hfirst, henc⟩)
    cases hq.symm.trans he

/-- One byte more is read with an answer or with an error, and not with both. -/
theorem answers_eq_nil_of_last {phase : Phase} {unread : Bytes} {b : UInt8} (hq : phase.firstSpan? unread = none)
    (he : (phase.read (unread ++ [b])).error? ≠ none) : (phase.read (unread ++ [b])).answers = [] := by
  cases hs : phase.firstSpan? (unread ++ [b]) with
  | none => rw [read_of_none hs]
  | some span =>
    cases ha : span.kind.answer span.bytes with
    | error e => rw [read_of_error hs ha]
    | ok a =>
      rw [read_of_ok hs ha, rest_eq_nil_of_last hq hs, read_of_none rfl] at he
      exact absurd rfl he

end Phase

end StreamAuth
