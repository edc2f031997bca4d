import StreamAuth.Proofs.Counters

/-!
# What the outside sees of the secrets

The user name, the password and the nonce of a session are secrets to everyone but its peer. Two sessions that differ in them and
are used alike stay alike (`Session.Alike`): one lemma for each function of a session says that alike sessions are left alike, and
that what they return differs in nothing but the announcement of SCRAM, which is made once at most (`Session.Parallel`).
-/

namespace StreamAuth

/-! ## Secrets -/

/-- What a session knows that its caller need not learn. -/
structure Secrets where
  /-- The user name. -/
  username : String
  /-- The password. -/
  password : String
  /-- The nonce. -/
  nonce : String

namespace Secrets

/-- The announcement of a mechanism. -/
def announcement (x : Secrets) (m : Mechanism) : Bytes :=
  (Stanza.announce m x.username x.nonce).toBytes

/-- How many bytes announce a mechanism, if there is one. -/
def announced (x : Secrets) : Option Mechanism → Nat
  | none => 0
  | some m => (x.announcement m).length

/-- A new session of a host with these secrets. -/
def session (x : Secrets) (host id : String) : Session :=
  .new id ⟨host, x.username, x.password⟩ x.nonce

/-- Only the announcement of SCRAM has secrets in it. -/
theorem announcement_eq (x y : Secrets) {m : Mechanism} (h : m ≠ .scramSha1) : x.announcement m = y.announcement m := by
  simp [announcement, Stanza.announce, Mechanism.hasInitialResponse, h]

end Secrets

namespace Session

/-! ## What differs once at most -/

/-- Whether a session has no mechanism to announce any more. -/
def Decided (s : Session) : Prop :=
  s.phase = .awaitingChallenge ∨ s.phase = .closed

/-- What two sessions return on the way from `s` to `s'` is the same, or differs in one place as `Differ` says. It can differ only
on the way to a decision for SCRAM, and a session that has decided stays so. -/
structure Parallel {α : Type} (Differ : α → α → Prop) (s s' : Session) (told other : List α) : Prop where
  decided : s.Decided → s'.Decided ∧ s'.mechanism? = s.mechanism?
  told : told = other ∨
    (¬s.Decided ∧ s'.Decided ∧ s'.mechanism? = some .scramSha1 ∧ ∃ before a b after,
      Differ a b ∧ told = before ++ a :: after ∧ other = before ++ b :: after)

section

variable {α : Type} {Differ : α → α → Prop} {s s' s'' : Session} {told other more moreOther : List α}

theorem Parallel.refl (s : Session) (told : List α) : Parallel Differ s s told told :=
  ⟨fun h => ⟨h, rfl⟩, Or.inl rfl⟩

/-- On two ways one after the other there is still one difference at most. -/
theorem Parallel.trans (h : Parallel Differ s s' told other) (h' : Parallel Differ s' s'' more moreOther) :
    Parallel Differ s s'' (told ++ more) (other ++ moreOther) := by
  refine ⟨?_, ?_⟩
  · intro hs
    obtain ⟨hs', hm⟩ := h.decided hs
    obtain ⟨hs'', hm'⟩ := h'.decided hs'
    exact ⟨hs'', hm'.trans hm⟩
  · rcases h.told with rfl | ⟨hs, hs', hm, before, a, b, after, hd, rfl, rfl⟩
    · rcases h'.told with rfl | ⟨hs', hs'', hm, before, a, b, after, hd, rfl, rfl⟩
      · exact Or.inl rfl
      · have hs : ¬s.Decided := fun hs => hs' (h.decided hs).1
        exact Or.inr ⟨hs, hs'', hm, told ++ before, a, b, after, hd, by simp, by simp⟩
    · obtain ⟨hs'', hm'⟩ := h'.decided hs'
      rcases h'.told with rfl | ⟨hn, _⟩
      · exact Or.inr ⟨hs, hs'', hm'.trans hm, before, a, b, after ++ more, hd, by simp, by simp⟩
      · exact absurd hs' hn

end

/-! ## Sessions that are alike -/

variable {host : String} {x y : Secrets}

/-- Two sessions of one host that agree in all but their secrets and the length of what they have announced. -/
structure Alike (host : String) (x y : Secrets) (s t : Session) : Prop where
  credentials : s.credentials = ⟨host, x.username, x.password⟩ ∧ t.credentials = ⟨host, y.username, y.password⟩
  nonce : s.nonce = x.nonce ∧ t.nonce = y.nonce
  phase : s.phase = t.phase
  buffer : s.buffer = t.buffer
  mechanism : s.mechanism? = t.mechanism?
  received : s.bytesReceived = t.bytesReceived
  spans : s.spansExtracted = t.spansExtracted
  challenges : s.challenges = t.challenges
  held : s.held? = t.held?
  written : s.bytesWritten + y.announced s.mechanism? = t.bytesWritten + x.announced s.mechanism?
  undecided : ¬s.Decided → s.mechanism? = none

variable {s t : Session}

theorem alike_new (host : String) (x y : Secrets) (id other : String) :
    Alike host x y (x.session host id) (y.session host other) :=
  ⟨⟨rfl, rfl⟩, ⟨rfl, rfl⟩, rfl, rfl, rfl, rfl, rfl, rfl, rfl, rfl, fun _ => rfl⟩

theorem Alike.take (h : Alike host x y s t) (span : Span SpanKind) : Alike host x y (s.take span) (t.take span) :=
  { h with buffer := rfl, spans := congrArg (· + 1) h.spans }

theorem Alike.receiving (h : Alike host x y s t) (bytes : Bytes) : Alike host x y (s.receiving bytes) (t.receiving bytes) :=
  { h with buffer := congrArg (·.append bytes) h.buffer, received := congrArg (· + bytes.length) h.received }

theorem Alike.close (h : Alike host x y s t) : Alike host x y s.close t.close :=
  { h with phase := rfl, buffer := rfl, undecided := fun hd => absurd (Or.inr rfl) hd }

theorem Alike.holding (h : Alike host x y s t) (held? : Option Error) :
    Alike host x y { s with held? := held? } { t with held? := held? } :=
  { h with held := rfl }

theorem Alike.nextSpan? (h : Alike host x y s t) : s.nextSpan? = t.nextSpan? := by
  rw [nextSpan?_eq, nextSpan?_eq, h.phase, h.buffer]

theorem Alike.waiting_iff (h : Alike host x y s t) : s.Waiting ↔ t.Waiting := by
  rw [Waiting, Waiting, h.phase]

/-! ## What they ask for -/

/-- An announcement of SCRAM, with the secrets of either. -/
def Announces (x y : Secrets) (a b : Action) : Prop :=
  a = .write (x.announcement .scramSha1) ∧ b = .write (y.announcement .scramSha1)

/-- Alike sessions give the same answer with their own secrets. -/
theorem Alike.give (h : Alike host x y s t) {kind : SpanKind} {span : Bytes} {a : Answer} (hk : kind ∈ watched s.phase)
    (ha : kind.answer span = .ok a) :
    Alike host x y (s.give a) (t.give a) ∧
      Parallel (Announces x y) s (s.give a) [a.action s.credentials s.nonce] [a.action t.credentials t.nonce] := by
  obtain ⟨hcs, hct⟩ := h.credentials
  obtain ⟨hns, hnt⟩ := h.nonce
  rcases Phase.answer_of_watched hk ha with ⟨hp, _, m, _, rfl⟩ | ⟨hp, _, c, rfl⟩
  · have hundecided : ¬s.Decided := by simp [Decided, hp]
    have hnone := h.undecided hundecided
    have hactions : ((Answer.announce m).action s.credentials s.nonce = .write (x.announcement m)) ∧
        (Answer.announce m).action t.credentials t.nonce = .write (y.announcement m) := by
      rw [hcs, hns, hct, hnt]
      exact ⟨rfl, rfl⟩
    refine ⟨{ h with phase := rfl, mechanism := rfl, written := ?_, undecided := fun hd => absurd (Or.inl rfl) hd }, ?_, ?_⟩
    · have hwritten := h.written
      rw [hnone] at hwritten
      simp only [Session.give, hcs, hns, hct, hnt]
      simp only [Secrets.announced, Secrets.announcement] at hwritten ⊢
      omega
    · exact fun hd => absurd hd hundecided
    · rw [hactions.1, hactions.2]
      by_cases hm : m = .scramSha1
      · subst hm
        exact Or.inr ⟨hundecided, Or.inl rfl, rfl, [], _, _, [], ⟨rfl, rfl⟩, rfl, rfl⟩
      · rw [x.announcement_eq y hm]
        exact Or.inl rfl
  · refine ⟨{ h with challenges := congrArg (· + 1) h.challenges }, ?_, Or.inl rfl⟩
    exact fun hd => ⟨hd, rfl⟩

/-- Runs from `s` and a session alike that come to alike sessions, end alike, and ask for the same but for one announcement. -/
structure Run.Alike (host : String) (x y : Secrets) (s : Session) (run other : Run) : Prop where
  session : Session.Alike host x y run.session other.session
  error : run.error? = other.error?
  actions : Parallel (Announces x y) s run.session run.actions other.actions

/-- A run that only ends on an error, or on none, is like the other one. -/
theorem Run.Alike.still (h : Session.Alike host x y s t) (error? : Option Error) :
    Run.Alike host x y s ⟨s, [], error?⟩ ⟨t, [], error?⟩ :=
  ⟨h, rfl, .refl s []⟩

/-- Drains of alike sessions are alike. -/
theorem Drains.alike {run : Run} (hd : Drains s run) (h : Alike host x y s t) : Run.Alike host x y s run t.drain := by
  induction hd generalizing t with
  | quiet hn =>
    rw [drain_of_none (h.nextSpan? ▸ hn)]
    exact .still h none
  | @fatal s span e hspan ha =>
    rw [drain_of_error (h.nextSpan? ▸ hspan) ha]
    exact ⟨h.take span, rfl, ⟨fun hs => ⟨hs, rfl⟩, Or.inl rfl⟩⟩
  | @answered s span a run hspan ha _ ih =>
    obtain ⟨hk, _⟩ := frame?_of_nextSpan? hspan
    obtain ⟨hgiven, hfirst⟩ := (h.take span).give hk ha
    have hrest := ih hgiven
    rw [drain_of_ok (h.nextSpan? ▸ hspan) ha]
    refine ⟨hrest.session, hrest.error, ?_⟩
    have hall := hfirst.trans hrest.actions
    exact ⟨hall.decided, hall.told⟩

/-- Alike sessions open the stream alike. -/
theorem Alike.openStream (h : Alike host x y s t) (hp : s.phase = .connecting) :
    Run.Alike host x y s ⟨s.openStream.1, [s.openStream.2], none⟩ ⟨t.openStream.1, [t.openStream.2], none⟩ := by
  have hundecided : ¬s.Decided := by simp [Decided, hp]
  have hheader : s.openStream.2 = t.openStream.2 := by
    rw [Session.openStream, Session.openStream, h.credentials.1, h.credentials.2]
  have hwritten : (s.openStream.1).bytesWritten + y.announced s.mechanism? =
      (t.openStream.1).bytesWritten + x.announced s.mechanism? := by
    have := h.written
    simp only [Session.openStream, emit, h.credentials.1, h.credentials.2]
    omega
  have hnone : s.openStream.1.mechanism? = none := h.undecided hundecided
  refine ⟨{ h with phase := rfl, written := hwritten, undecided := fun _ => hnone }, rfl, ?_, ?_⟩
  · exact fun hd => absurd hd hundecided
  · exact Or.inl (congrArg (fun action => [action]) hheader)

/-- An event is alike for alike sessions. -/
theorem Alike.advance (h : Alike host x y s t) (event : Event) :
    Run.Alike host x y s (s.advance event) (t.advance event) := by
  cases event with
  | connected =>
    by_cases hp : s.phase = .connecting
    · rw [advance_connected hp, advance_connected (h.phase ▸ hp)]
      exact h.openStream hp
    · rw [advance_connected_of_ne hp, advance_connected_of_ne (h.phase ▸ hp), h.phase]
      exact .still h _
  | received bytes =>
    by_cases hw : s.Waiting
    · have hdrain := (drains_drain (s.receiving bytes)).alike (h.receiving bytes)
      rw [advance_received hw, advance_received (h.waiting_iff.mp hw)]
      exact ⟨hdrain.session, hdrain.error, hdrain.actions.decided, hdrain.actions.told⟩
    · rw [advance_received_of_not hw, advance_received_of_not (mt h.waiting_iff.mpr hw), h.phase]
      exact .still h _
  | failed fault => exact .still h _

/-! ## What they return -/

/-- Calls on `s` and a session alike that leave alike sessions, and return the same error, or the same actions but for one
announcement. -/
structure SameCall (host : String) (x y : Secrets) (s : Session) (call other : Session × Except Error (List Action)) :
    Prop where
  session : Alike host x y call.1 other.1
  shape : (∃ e, call.2 = .error e ∧ other.2 = .error e) ∨ ∃ actions others, call.2 = .ok actions ∧ other.2 = .ok others
  actions : Parallel (Announces x y) s call.1 (returned call.2) (returned other.2)

/-- What differs in one place is empty if the other is. -/
theorem Parallel.eq_nil_iff {α : Type} {Differ : α → α → Prop} {s s' : Session} {told other : List α}
    (h : Parallel Differ s s' told other) : told = [] ↔ other = [] := by
  rcases h.told with rfl | ⟨_, _, _, before, a, b, after, _, rfl, rfl⟩
  · exact Iff.rfl
  · simp

/-- A run that has closed the session has decided. -/
theorem Parallel.close {s : Session} {run : Run} {others : List Action}
    (h : Parallel (Announces x y) s run.session run.actions others) :
    Parallel (Announces x y) s run.session.close run.actions others := by
  refine ⟨fun hs => ⟨Or.inr rfl, (h.decided hs).2⟩, h.told.imp_right ?_⟩
  rintro ⟨hs, _, hm, hd⟩
  exact ⟨hs, Or.inr rfl, hm, hd⟩

/-- Alike runs end in alike calls. -/
theorem Run.Alike.close {run other : Run} (h : Run.Alike host x y s run other) : SameCall host x y s run.close other.close := by
  obtain ⟨t, actions, error?⟩ := run
  obtain ⟨t', others, other?⟩ := other
  obtain ⟨hsession, herror, hactions⟩ := h
  cases herror
  cases error? with
  | none => exact ⟨hsession, Or.inr ⟨_, _, rfl, rfl⟩, hactions⟩
  | some e =>
    have hclosed := hactions.close
    cases actions with
    | nil =>
      cases hactions.eq_nil_iff.mp rfl
      exact ⟨hsession.close, Or.inl ⟨e, rfl, rfl⟩, hclosed⟩
    | cons action actions =>
      obtain ⟨first, rest, rfl⟩ := List.exists_cons_of_ne_nil (mt hactions.eq_nil_iff.mpr (List.cons_ne_nil action actions))
      refine ⟨hsession.close.holding (some e), Or.inr ⟨_, _, rfl, rfl⟩, ?_⟩
      have hall := hclosed.trans (.refl t.close [.disconnect])
      exact ⟨hall.decided, hall.told⟩

/-- Alike sessions handle an event alike. -/
theorem Alike.handle (h : Alike host x y s t) (event : Event) : SameCall host x y s (s.handle event) (t.handle event) := by
  cases hh : s.held? with
  | some e =>
    rw [handle_of_held hh, handle_of_held (h.held ▸ hh)]
    exact ⟨h.holding none, Or.inl ⟨e, rfl, rfl⟩, fun hs => ⟨hs, rfl⟩, Or.inl rfl⟩
  | none =>
    rw [handle_of_free hh, handle_of_free (h.held ▸ hh)]
    exact (h.advance event).close

/-! ## Replies -/

/-- What one use of a session tells its caller. A dispatch tells it on a recorder, too. -/
inductive Reply where
  /-- An event was handled. -/
  | handled (result : Except Error (List Action))
  /-- An event was dispatched. -/
  | dispatched (recorder : Recorder) (result : Except Error (List Challenge))
  /-- The error that was held was taken. -/
  | taken (error? : Option Error)
  /-- The session was closed. -/
  | closed

/-- The reply to one use. -/
def reply (s : Session) : Use → Reply
  | .call (.handle event) => .handled (s.handle event).2
  | .call .takeError => .taken s.takeError.1
  | .call .close => .closed
  | .dispatch event => .dispatched (s.dispatch event ({} : Recorder)).2.1 (s.dispatch event ({} : Recorder)).2.2

/-- The replies to some uses, one after the other. -/
def replies (s : Session) : List Use → List Reply
  | [] => []
  | u :: us => s.reply u :: (s.use u).1.replies us

/-- Two replies that differ in the bytes of one write alone: it announces SCRAM, with the secrets of either. -/
inductive Reply.Differ (x y : Secrets) : Reply → Reply → Prop where
  | handled (before after : List Action) :
      Differ x y (.handled (.ok (before ++ .write (x.announcement .scramSha1) :: after)))
        (.handled (.ok (before ++ .write (y.announcement .scramSha1) :: after)))
  | dispatched (before after : List Bytes) (disconnects : Nat) (result : Except Error (List Challenge)) :
      Differ x y (.dispatched ⟨before ++ x.announcement .scramSha1 :: after, disconnects⟩ result)
        (.dispatched ⟨before ++ y.announcement .scramSha1 :: after, disconnects⟩ result)

/-- A reply is told as what it is made of is. -/
theorem Parallel.map {s s' : Session} {told other : List Action} {f : List Action → Reply}
    (h : Parallel (Announces x y) s s' told other)
    (hf : ∀ before after, (Reply.Differ x y) (f (before ++ .write (x.announcement .scramSha1) :: after))
      (f (before ++ .write (y.announcement .scramSha1) :: after))) :
    Parallel (Reply.Differ x y) s s' [f told] [f other] := by
  refine ⟨h.decided, ?_⟩
  rcases h.told with rfl | ⟨hs, hs', hm, before, a, b, after, ⟨rfl, rfl⟩, rfl, rfl⟩
  · exact Or.inl rfl
  · exact Or.inr ⟨hs, hs', hm, [], _, _, [], hf before after, rfl, rfl⟩

/-- What does not depend on the bytes of a write is the same for what differs in them alone. -/
theorem Parallel.filterMap_eq {β : Type} {s s' : Session} {told other : List Action}
    (h : Parallel (Announces x y) s s' told other) {f : Action → Option β} (hf : ∀ bytes, f (.write bytes) = none) :
    told.filterMap f = other.filterMap f := by
  rcases h.told with rfl | ⟨_, _, _, before, a, b, after, ⟨rfl, rfl⟩, rfl, rfl⟩
  · rfl
  · simp [hf]

/-- Alike sessions reply to a dispatch alike. -/
theorem Alike.dispatch (h : Alike host x y s t) (event : Event) :
    Alike host x y (s.use (.dispatch event)).1 (t.use (.dispatch event)).1 ∧
      Parallel (Reply.Differ x y) s (s.use (.dispatch event)).1 [s.reply (.dispatch event)] [t.reply (.dispatch event)] := by
  have hclosed : s.isClosed = t.isClosed := by rw [isClosed, isClosed, h.phase]
  obtain ⟨hsession, hshape, hactions⟩ := h.handle event
  simp only [use, reply, Session.dispatch, hclosed]
  generalize s.handle event = call at *
  generalize t.handle event = other at *
  obtain ⟨s', result⟩ := call
  obtain ⟨t', result'⟩ := other
  rcases hshape with ⟨e, rfl, rfl⟩ | ⟨actions, others, rfl, rfl⟩
  · cases t.isClosed <;> exact ⟨hsession, hactions.decided, Or.inl rfl⟩
  · have hchallenges : actions.filterMap challengeOf? = others.filterMap challengeOf? := hactions.filterMap_eq fun _ => rfl
    have hheld : s'.held? = t'.held? := hsession.held
    have hreply (result : Except Error (List Challenge)) := hactions.map
      (f := fun told => .dispatched ⟨told.filterMap writeOf?, told.count .disconnect⟩ result) fun before after => by
        simpa [writeOf?] using Reply.Differ.dispatched (before.filterMap writeOf?) (after.filterMap writeOf?)
          (before.count .disconnect + after.count .disconnect) result
    simp only [foldl_perform_recorder, List.nil_append, Nat.zero_add, hchallenges, hheld]
    cases others.filterMap challengeOf? with
    | cons c cs => exact ⟨hsession, hreply (.ok (c :: cs))⟩
    | nil =>
      cases t'.held? with
      | none => exact ⟨hsession, hreply (.ok [])⟩
      | some e => exact ⟨hsession.holding none, (hreply (.error e)).decided, (hreply (.error e)).told⟩

/-- Alike sessions reply to any use alike. -/
theorem Alike.use (h : Alike host x y s t) (u : Use) :
    Alike host x y (s.use u).1 (t.use u).1 ∧
      Parallel (Reply.Differ x y) s (s.use u).1 [s.reply u] [t.reply u] := by
  cases u with
  | dispatch event => exact h.dispatch event
  | call op =>
    cases op with
    | close => exact ⟨h.close, fun hs => ⟨Or.inr rfl, rfl⟩, Or.inl rfl⟩
    | takeError =>
      refine ⟨h.holding none, fun hs => ⟨hs, rfl⟩, Or.inl ?_⟩
      simp only [reply, takeError, h.held]
    | handle event =>
      obtain ⟨hsession, hshape, hactions⟩ := h.handle event
      refine ⟨hsession, ?_⟩
      simp only [reply]
      rcases hshape with ⟨e, he, he'⟩ | ⟨actions, others, hok, hok'⟩
      · rw [he, he']
        exact ⟨hactions.decided, Or.inl rfl⟩
      · rw [hok, hok'] at hactions ⊢
        exact hactions.map (f := fun told => .handled (.ok told)) .handled

/-- Alike sessions that are used alike stay alike, and reply alike. -/
theorem Alike.uses (us : List Use) {s t : Session} (h : Alike host x y s t) :
    Alike host x y (s.uses us).1 (t.uses us).1 ∧
      Parallel (Reply.Differ x y) s (s.uses us).1 (s.replies us) (t.replies us) := by
  induction us generalizing s t with
  | nil => exact ⟨h, .refl s []⟩
  | cons u us ih =>
    obtain ⟨hsession, hfirst⟩ := h.use u
    obtain ⟨hend, hrest⟩ := ih hsession
    exact ⟨hend, hfirst.trans hrest⟩

/-! ## Whole runs -/

/-- Alike sessions are the same but for what they are named, for whom they are, and what they have written. -/
theorem Alike.eq (h : Alike host x y s t) :
    t = { s with id := t.id, credentials := t.credentials, nonce := t.nonce, bytesWritten := t.bytesWritten } := by
  cases t
  simp only [Session.mk.injEq, true_and]
  exact ⟨h.phase.symm, h.buffer.symm, h.mechanism.symm, h.received.symm, h.spans.symm, h.challenges.symm, h.held.symm⟩

/-- Alike sessions have written as much, unless SCRAM was announced. -/
theorem Alike.written_eq (h : Alike host x y s t) (hm : s.mechanism? ≠ some .scramSha1) : s.bytesWritten = t.bytesWritten := by
  have hwritten := h.written
  have hannounced : x.announced s.mechanism? = y.announced s.mechanism? := by
    cases hs : s.mechanism? with
    | none => rfl
    | some m =>
      have hne : m ≠ .scramSha1 := fun he => hm (he ▸ hs)
      rw [Secrets.announced, Secrets.announced, x.announcement_eq y hne]
  omega

/-- Alike sessions of one user and one nonce are the same but for their names and their passwords. -/
theorem Alike.eq_of_password {password : String} (h : Alike host x { x with password } s t) :
    t = { s with id := t.id, credentials := t.credentials } := by
  have hnonce : t.nonce = s.nonce := h.nonce.2.trans h.nonce.1.symm
  have hwritten : t.bytesWritten = s.bytesWritten := by
    have hboth : s.bytesWritten + x.announced s.mechanism? = t.bytesWritten + x.announced s.mechanism? := h.written
    omega
  have heq := h.eq
  rwa [hnonce, hwritten] at heq

/-- Replies that differ in the announcement alone are the same for one user and one nonce. -/
theorem Parallel.eq_of_password {s s' : Session} {password : String} {told other : List Reply}
    (h : Parallel (Reply.Differ x { x with password }) s s' told other) : told = other := by
  rcases h.told with rfl | ⟨_, _, _, before, a, b, after, hd, rfl, rfl⟩
  · rfl
  · cases hd <;> rfl

/-- What the secrets of a session show to its caller, in three parts. Two new sessions of one host with whatever secrets, used
alike in whatever way:
1. They are left the same but for their names, their secrets and the number of bytes that they have written. These numbers are
   the same, too, unless SCRAM was announced, and then they differ as the lengths of the two announcements do.
2. They have given the same replies, one by one, with one exception at most: if SCRAM was announced, one reply has the
   announcement with the secrets of either in it, and does not differ in anything else.
3. If no more than the passwords differ, they have given the same replies, and are left the same but for names and passwords. -/
theorem secrecy_of_uses (host id other : String) (x y : Secrets) (us : List Use) :
    let s := ((x.session host id).uses us).1
    let t := ((y.session host other).uses us).1
    let replies := (x.session host id).replies us
    let others := (y.session host other).replies us
    (t = { s with id := t.id, credentials := t.credentials, nonce := t.nonce, bytesWritten := t.bytesWritten } ∧
        (s.mechanism? ≠ some .scramSha1 → s.bytesWritten = t.bytesWritten) ∧
        (s.mechanism? = some .scramSha1 → s.bytesWritten + (y.announcement .scramSha1).length =
          t.bytesWritten + (x.announcement .scramSha1).length)) ∧
      (replies = others ∨ (s.mechanism? = some .scramSha1 ∧ ∃ before a b after,
        Reply.Differ x y a b ∧ replies = before ++ a :: after ∧ others = before ++ b :: after)) ∧
      ∀ password, let u := (({ x with password } : Secrets).session host other).uses us
        u.1 = { s with id := u.1.id, credentials := u.1.credentials } ∧
          (({ x with password } : Secrets).session host other).replies us = replies := by
  intro s t replies others
  obtain ⟨halike, hparallel⟩ := (alike_new host x y id other).uses us
  refine ⟨⟨halike.eq, halike.written_eq, ?_⟩, ?_, ?_⟩
  · intro hm
    have hwritten : s.bytesWritten + y.announced s.mechanism? = t.bytesWritten + x.announced s.mechanism? := halike.written
    rwa [hm] at hwritten
  · refine hparallel.told.imp_right ?_
    rintro ⟨_, _, hm, hdiffer⟩
    exact ⟨hm, hdiffer⟩
  · intro password u
    obtain ⟨hsame, htold⟩ := (alike_new host x { x with password } id other).uses us
    exact ⟨hsame.eq_of_password, htold.eq_of_password.symm⟩

end Session

end StreamAuth
