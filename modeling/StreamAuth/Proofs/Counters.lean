import Mathlib.Algebra.GroupWithZero.Nat
import Mathlib.Order.Nat
import StreamAuth.Proofs.History
import StreamAuth.Proofs.Teardown

/-!
# What the counters count

A session counts the bytes that it writes, the challenges that it hands out and the spans that it takes, each at another moment
of a step. `Counted` says that after a call, also after one that ends on an error, the counters agree with what the call has
returned; it adds up along a run. With the history of the spans, this ties all counters to what a caller has been given, however
the session is used: by calls of its own, or by dispatches to a transport.
-/

namespace StreamAuth.Session

/-! ## Counting -/

/-- The number of bytes that some actions write. -/
def bytesOf (actions : List Action) : Nat :=
  ((actions.filterMap writeOf?).map List.length).sum

theorem bytesOf_append (actions more : List Action) : bytesOf (actions ++ more) = bytesOf actions + bytesOf more := by
  simp [bytesOf]

/-- Between two states of a session, the counters have counted some actions and some spans. -/
structure Counted (s : Session) (actions : List Action) (takings : List Taking) (t : Session) : Prop where
  written : t.bytesWritten = s.bytesWritten + bytesOf actions
  challenges : t.challenges = s.challenges + (actions.filterMap challengeOf?).length
  spans : t.spansExtracted = s.spansExtracted + takings.length

/-- Counts add up. -/
theorem Counted.trans {s t u : Session} {actions more : List Action} {takings later : List Taking}
    (h : s.Counted actions takings t) (h' : t.Counted more later u) : s.Counted (actions ++ more) (takings ++ later) u := by
  refine ⟨?_, ?_, ?_⟩
  · rw [h'.written, h.written, bytesOf_append, Nat.add_assoc]
  · rw [h'.challenges, h.challenges, List.filterMap_append, List.length_append, Nat.add_assoc]
  · rw [h'.spans, h.spans, List.length_append, Nat.add_assoc]

/-- A turn of the loop counts the span that it takes and what it answers. -/
theorem counted_take (s : Session) (span : Span SpanKind) (a : Answer) :
    s.Counted [a.action s.credentials s.nonce] [s.taking span] ((s.take span).give a) := by
  cases a with
  | announce m => exact ⟨rfl, rfl, rfl⟩
  | pass c => exact ⟨rfl, rfl, rfl⟩

/-- Opening the stream counts its header. -/
theorem counted_openStream (s : Session) : s.Counted [s.openStream.2] [] s.openStream.1 := by
  refine ⟨?_, rfl, rfl⟩
  simp only [openStream, emit, bytesOf, List.filterMap_cons, writeOf?, List.filterMap_nil, List.map_cons, List.map_nil,
    List.sum_cons, List.sum_nil, Nat.add_zero]

/-- A drain counts what it asks for and what it takes, a fatal span included. -/
theorem Drains.counted {s : Session} {run : Run} (h : Drains s run) : s.Counted run.actions s.takings run.session := by
  induction h with
  | quiet hn =>
    rw [takings_of_none hn]
    exact ⟨rfl, rfl, rfl⟩
  | fatal hspan ha =>
    rw [takings_of_error hspan ha]
    exact ⟨rfl, rfl, rfl⟩
  | @answered s span a run hspan ha _ ih =>
    rw [takings_of_ok hspan ha]
    exact (counted_take s span a).trans ih

/-- Actions count by their output alone. -/
theorem Counted.congr {s t : Session} {actions others : List Action} {takings : List Taking} (h : s.Counted actions takings t)
    (hout : SameOutput others actions) : s.Counted others takings t :=
  ⟨by rw [bytesOf, hout.writes]; exact h.written, by rw [hout.challenges]; exact h.challenges, h.spans⟩

/-- The end of a call counts nothing. -/
theorem Counted.close {s : Session} {run : Run} {takings : List Taking} (h : s.Counted run.actions takings run.session) :
    s.Counted (returned run.close.2) takings run.close.1 := by
  obtain ⟨_, _, _, ht⟩ := run.session_close
  have hcounted := h.congr run.sameOutput_close
  rw [ht]
  exact ⟨hcounted.written, hcounted.challenges, hcounted.spans⟩

variable {credentials : Credentials} {nonce : String}

/-- A call counts what it returns and what it takes, also if it ends on an error. -/
theorem counted_call {s : Session} {o : Output} (hs : s.Shows credentials nonce o) (op : Operation) :
    s.Counted (returned (s.call op).2) (s.takingsOf op) (s.call op).1 := by
  cases op with
  | close => exact ⟨rfl, rfl, rfl⟩
  | takeError => exact ⟨rfl, rfl, rfl⟩
  | handle event =>
    rw [call]
    rcases handle_cases hs event with ⟨bytes, rfl, _, hc⟩ | ⟨ht, hc | ⟨_, _, _, e, hc⟩⟩
    · have hdrain := (drains_drain (s.receiving bytes)).counted.close
      rw [hc]
      exact ⟨hdrain.written, hdrain.challenges, hdrain.spans⟩
    · rw [ht, hc]
      exact counted_openStream s
    · rw [ht, hc]
      exact ⟨rfl, rfl, rfl⟩

/-- A run of calls counts what it returns and what it takes. -/
theorem counted_calls (ops : List Operation) {s : Session} {o : Output} (hs : s.Shows credentials nonce o) :
    s.Counted (s.calls ops).2.flatten (s.ledger ops) (s.calls ops).1 := by
  induction ops generalizing s o with
  | nil => exact ⟨rfl, rfl, rfl⟩
  | cons op ops ih =>
    obtain ⟨o', ht, _⟩ := shows_call hs op
    exact (counted_call hs op).trans (ih ht)

/-! ## Uses -/

/-- What a caller can do with a session: a call of its own, or a dispatch to a transport. -/
inductive Use where
  /-- A call. -/
  | call (op : Operation)
  /-- Have an event handled on a transport. -/
  | dispatch (event : Event)

/-- The call that a use makes of the session. -/
def Use.operation : Use → Operation
  | .call op => op
  | .dispatch event => .handle event

/-- One use: the session after it, and the actions that it handed out. A dispatch hands them out as writes on the transport, which
is a new recorder here, and as the challenges that it returns. -/
def use (s : Session) : Use → Session × List Action
  | .call op => ((s.call op).1, returned (s.call op).2)
  | .dispatch event =>
    match s.dispatch event ({} : Recorder) with
    | (t, recorder, result) => (t, recorder.writes.map .write ++ (handedOut result).map .challenge)

/-- Some uses, one after the other: the session after them, and all actions that they handed out. -/
def uses (s : Session) : List Use → Session × List Action
  | [] => (s, [])
  | u :: us =>
    let rest := (s.use u).1.uses us
    (rest.1, (s.use u).2 ++ rest.2)

/-- The spans that some uses have taken. -/
def history (s : Session) : List Use → List Taking
  | [] => []
  | u :: us => s.takingsOf u.operation ++ (s.use u).1.history us

/-- Writes on a transport and challenges that are returned are as good as the actions that ask for them. -/
theorem sameOutput_of_handed (actions : List Action) :
    SameOutput ((actions.filterMap writeOf?).map .write ++ (actions.filterMap challengeOf?).map .challenge) actions := by
  refine ⟨?_, ?_⟩
  · simp [List.filterMap_append, List.filterMap_map, Function.comp_def, writeOf?]
  · simp [List.filterMap_append, List.filterMap_map, Function.comp_def, challengeOf?]

/-- A dispatch hands out what its event does, and leaves the session as the event does, or with the held error taken. -/
theorem use_dispatch (s : Session) (event : Event) :
    ((s.use (.dispatch event)).1 = (s.handle event).1 ∨
        (s.use (.dispatch event)).1 = { (s.handle event).1 with held? := none }) ∧
      SameOutput (s.use (.dispatch event)).2 (returned (s.handle event).2) := by
  simp only [use, dispatch]
  generalize s.handle event = call
  obtain ⟨t, result⟩ := call
  cases result with
  | error e => cases s.isClosed <;> exact ⟨Or.inl rfl, .refl []⟩
  | ok actions =>
    have hout := sameOutput_of_handed actions
    simp only [foldl_perform_recorder, List.nil_append, returned]
    cases hc : actions.filterMap challengeOf? with
    | nil =>
      rw [hc] at hout
      cases hh : t.held? with
      | none => exact ⟨Or.inl rfl, hout⟩
      | some e => exact ⟨Or.inr rfl, hout⟩
    | cons c cs =>
      rw [hc] at hout
      exact ⟨Or.inl rfl, hout⟩

/-- Whatever use is made of a session, it could have been calls of its own alone. -/
theorem exists_calls_of_uses (us : List Use) (s : Session) :
    ∃ ops, (s.uses us).1 = (s.calls ops).1 ∧ SameOutput (s.uses us).2 (s.calls ops).2.flatten ∧
      s.history us = s.ledger ops := by
  induction us generalizing s with
  | nil => exact ⟨[], rfl, .refl [], rfl⟩
  | cons u us ih =>
    obtain ⟨ops, hs, hout, hledger⟩ := ih (s.use u).1
    cases u with
    | call op =>
      refine ⟨op :: ops, hs, (SameOutput.refl _).append hout, ?_⟩
      rw [history, hledger]
      rfl
    | dispatch event =>
      obtain ⟨hnext, hfirst⟩ := use_dispatch s event
      rcases hnext with hnext | hnext
      · rw [hnext] at hs hout hledger
        refine ⟨.handle event :: ops, ?_, hfirst.append ?_, ?_⟩
        · rw [uses, hnext, hs]
          rfl
        · rw [hnext]
          exact hout
        · rw [history, hnext, hledger]
          rfl
      · rw [hnext] at hs hout hledger
        refine ⟨.handle event :: .takeError :: ops, ?_, hfirst.append ?_, ?_⟩
        · rw [uses, hnext, hs]
          rfl
        · rw [hnext]
          exact hout
        · rw [history, hnext, hledger]
          rfl

/-! ## All counters -/

/-- A call that leaves the session unconnected leaves it as it was. -/
theorem call_connecting {s : Session} (hh : s.held? = none) {op : Operation} (hp : (s.call op).1.phase = .connecting) :
    (s.call op).1 = s := by
  cases op with
  | close => cases hp
  | takeError =>
    rw [call, takeError, ← hh]
  | handle event =>
    rw [call, handle_of_free hh] at hp
    have hopen : (s.advance event).close.1.phase ≠ .closed := by simp [hp]
    obtain ⟨he, ht⟩ := error?_of_close_ne_closed hopen
    rw [ht] at hp
    rcases waiting_of_advance he with hw | hw <;> cases hp.symm.trans hw

/-- Calls that leave a session unconnected leave it as it was. -/
theorem calls_connecting (ops : List Operation) {s : Session} {o : Output} (hs : s.Shows credentials nonce o)
    (hp : (s.calls ops).1.phase = .connecting) : (s.calls ops).1 = s := by
  induction ops generalizing s o with
  | nil => rfl
  | cons op ops ih =>
    obtain ⟨o', ht, _⟩ := shows_call hs op
    have hrest : (s.calls (op :: ops)).1 = (s.call op).1 := ih ht hp
    rw [hrest] at hp ⊢
    refine call_connecting ?_ hp
    by_contra hne
    have hclosed := hs.held hne
    obtain ⟨held?, hcall⟩ := call_of_closed hclosed (hs.closed hclosed) op
    rw [hcall] at hp
    cases hclosed.symm.trans hp

/-- PLAIN is the mechanism of no session. -/
theorem Shows.mechanism_ne_plain {s : Session} {o : Output} (h : s.Shows credentials nonce o) : s.mechanism? ≠ some .plain := by
  rw [h.mechanism]
  exact o.never_plain

/-- A session that awaits challenges has announced one of the two mechanisms that it announces. -/
theorem Shows.mechanism_of_challenge {s : Session} {o : Output} (h : s.Shows credentials nonce o)
    (hp : s.phase = .awaitingChallenge) : s.mechanism? = some .scramSha1 ∨ s.mechanism? = some .digestMd5 := by
  have hsome := h.challenge hp
  have hplain := h.mechanism_ne_plain
  rw [← h.mechanism] at hsome
  cases hm : s.mechanism? with
  | none => exact absurd hm hsome
  | some m =>
    cases m with
    | scramSha1 => exact Or.inl rfl
    | digestMd5 => exact Or.inr rfl
    | plain => exact absurd hm hplain

/-- A new session that has counted what it has the history of has taken its challenges, the features for its mechanism, and the
span that was fatal. -/
theorem Counted.balance {id : String} {t : Session} {actions : List Action} {takings : List Taking} {fatal? : Option Error}
    (h : (new id credentials nonce).Counted actions takings t)
    (hh : (new id credentials nonce).History (actions.filterMap challengeOf?) takings fatal? t) :
    t.spansExtracted = t.challenges + (if t.mechanism?.isSome then 1 else 0) + takings.countP Taking.isFatal ∧
      takings.countP Taking.isFatal = fatal?.toList.length := by
  obtain ⟨announced, hannounced, hverdicts⟩ := hh.spans
  have hannounced : t.mechanism?.toList = announced := hannounced
  have hone : t.mechanism?.toList.length = if t.mechanism?.isSome then 1 else 0 := by cases t.mechanism? <;> rfl
  have hchallenges : t.challenges = (actions.filterMap challengeOf?).length := h.challenges.trans (Nat.zero_add _)
  have hspans : t.spansExtracted = takings.length := h.spans.trans (Nat.zero_add _)
  have hfatal := countP_isFatal hverdicts
  have hlength := length_of_verdicts hverdicts
  rw [← hannounced, hone] at hlength
  refine ⟨?_, hfatal⟩
  omega

/-- A new session without a mechanism has counted no challenge. -/
theorem Counted.challenges_eq_zero {id : String} {t : Session} {actions : List Action} {takings : List Taking}
    {fatal? : Option Error} (h : (new id credentials nonce).Counted actions takings t)
    (hh : (new id credentials nonce).History (actions.filterMap challengeOf?) takings fatal? t) (hm : t.mechanism? = none) :
    t.challenges = 0 := by
  have hnil : actions.filterMap challengeOf? = [] := by
    by_contra hne
    exact hh.mechanism hne hm
  rw [h.challenges, hnil]
  rfl

/-- What is buffered of what a new session has received is no more than that. -/
theorem Accounts.buffered_le {id : String} {t : Session} {arrived : Bytes} {takings : List Taking}
    (h : (new id credentials nonce).Accounts arrived takings t) : t.buffer.length ≤ t.bytesReceived := by
  obtain ⟨hbytes, hreceived, _⟩ := h
  have hbytes : arrived = takings.flatMap Taking.bytes ++ t.buffer.bytes := hbytes
  have hreceived : t.bytesReceived = arrived.length := hreceived.trans (Nat.zero_add _)
  rw [hreceived, hbytes, List.length_append, ReceiveBuffer.length]
  exact Nat.le_add_left _ _

/-- What the state and the counters of a session say, in five parts. Whatever use is made of a new session:
1. Before the connection there is no mechanism, nothing is buffered and all counters are zero. While features are awaited there
   is no mechanism and no challenge. While challenges are awaited the mechanism is SCRAM-SHA-1 or DIGEST-MD5. It is never PLAIN.
2. A closed session has an empty buffer, and only a closed session holds an error.
3. The counters of bytes and of challenges count what has been handed out, whether or not a use ended on an error.
4. The counter of spans counts the spans that were taken: the challenges, the features that a mechanism was announced for, and
   the span that was fatal. Of the latter there is at most one, and none while the session is open.
5. An open session buffers no more bytes than it has received. -/
theorem counters_of_uses (id : String) (credentials : Credentials) (nonce : String) (us : List Use) :
    let t := ((new id credentials nonce).uses us).1
    let actions := ((new id credentials nonce).uses us).2
    let fatal := ((new id credentials nonce).history us).countP Taking.isFatal
    ((t.phase = .connecting → t.stats = ⟨id, .connecting, none, 0, 0, 0, 0, 0⟩ ∧ t.buffer = .empty) ∧
        (t.phase = .awaitingFeatures → t.mechanism? = none ∧ t.stats.challenges = 0) ∧
        (t.phase = .awaitingChallenge → t.mechanism? = some .scramSha1 ∨ t.mechanism? = some .digestMd5) ∧
        t.mechanism? ≠ some .plain) ∧
      ((t.phase = .closed → t.buffer = .empty) ∧ (t.held? ≠ none → t.phase = .closed)) ∧
      (t.stats.bytesWritten = bytesOf actions ∧ t.stats.challenges = (actions.filterMap challengeOf?).length) ∧
      (t.stats.spansExtracted = ((new id credentials nonce).history us).length ∧
        t.stats.spansExtracted = t.stats.challenges + (if t.mechanism?.isSome then 1 else 0) + fatal ∧ fatal ≤ 1 ∧
        (t.phase ≠ .closed → fatal = 0)) ∧
      (t.phase ≠ .closed → t.stats.bytesBuffered ≤ t.stats.bytesReceived) := by
  intro t actions fatal
  obtain ⟨ops, ht, hout, hledger⟩ := exists_calls_of_uses us (new id credentials nonce)
  have hnew : (new id credentials nonce).Shows credentials nonce .empty := shows_new id
  obtain ⟨o, hshows, _⟩ := shows_calls ops hnew
  obtain ⟨fatal?, hhistory, hfatal⟩ := history_calls ops hnew
  have hcounted := (counted_calls ops hnew).congr hout
  have hunconnected := calls_connecting ops hnew
  have haccounts := accounts_calls ops hnew
  -- From here on, only what the calls have led to is talked about.
  rw [← ht] at hshows hcounted hhistory hfatal hunconnected haccounts
  rw [← hledger] at hcounted hhistory
  rw [← hout.challenges] at hhistory
  obtain ⟨hbalance, hfatals⟩ := hcounted.balance hhistory
  refine ⟨⟨fun hp => ?_, fun hp => ?_, hshows.mechanism_of_challenge, hshows.mechanism_ne_plain⟩,
    ⟨hshows.closed, hshows.held⟩, ⟨hcounted.written.trans (Nat.zero_add _), hcounted.challenges.trans (Nat.zero_add _)⟩,
    ⟨hcounted.spans.trans (Nat.zero_add _), hbalance, ?_, fun hp => ?_⟩, fun hp => (haccounts hp).buffered_le⟩
  · have hsame : t = _ := hunconnected hp
    rw [hsame]
    exact ⟨rfl, rfl⟩
  · have hnone := hshows.mechanism.trans (hshows.features hp).2
    exact ⟨hnone, hcounted.challenges_eq_zero hhistory hnone⟩
  · refine hfatals.le.trans ?_
    cases fatal? with
    | none => exact Nat.zero_le 1
    | some e => exact Nat.le_refl 1
  · refine hfatals.trans ?_
    rw [hfatal hp]
    rfl

end StreamAuth.Session
