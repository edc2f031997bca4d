import StreamAuth.Proofs.Steps

/-!
# The order of what a session asks for

Along every run of calls a session asks for at most one stream header, then for at most one announcement, then for the delivery
of challenges, and at last for at most one end of the connection (`Output`). `Shows` ties what has been asked for so far to the
state: it holds of a new session, each call keeps it (`shows_call`), and so it holds after every run (`shows_calls`).
-/

namespace StreamAuth

/-! ## What can be asked for -/

/-- All that a session asks for, part by part. A part is there only if the one before it is. -/
structure Output where
  /-- Whether the stream was opened. -/
  opened : Bool
  /-- The mechanism that was announced, if one was. -/
  announced? : Option Mechanism
  /-- The challenges that were handed out. -/
  challenges : List Challenge
  /-- Whether the connection was to be ended. -/
  disconnected : Bool
  opened_of_announced : announced? ≠ none → opened = true
  announced_of_challenges : challenges ≠ [] → announced? ≠ none
  never_plain : announced? ≠ some .plain

namespace Output

/-- What was asked for, in order. -/
def actions (credentials : Credentials) (nonce : String) (o : Output) : List Action :=
  (if o.opened then [.write (Stanza.streamHeader credentials.host).toBytes] else []) ++
    (o.announced?.toList.map fun m => .write (Stanza.announce m credentials.username nonce).toBytes) ++
    o.challenges.map .challenge ++ (if o.disconnected then [.disconnect] else [])

/-- Nothing was asked for. -/
def empty : Output :=
  ⟨false, none, [], false, nofun, nofun, nofun⟩

theorem challenges_eq_nil {o : Output} (h : o.announced? = none) : o.challenges = [] := by
  cases hc : o.challenges with
  | nil => rfl
  | cons c cs => exact absurd h (o.announced_of_challenges (by rw [hc]; nofun))

theorem announced?_eq_none {o : Output} (h : o.opened = false) : o.announced? = none := by
  cases ha : o.announced? with
  | none => rfl
  | some m =>
    have := o.opened_of_announced (by rw [ha]; nofun)
    rw [h] at this
    cases this

/-- The output with the stream opened. -/
def connect (o : Output) : Output :=
  { o with opened := true, opened_of_announced := fun _ => rfl }

/-- The output with a mechanism announced. -/
def announce (o : Output) (m : Mechanism) (ho : o.opened = true) (hm : m ≠ .plain) : Output :=
  { o with
    announced? := some m
    opened_of_announced := fun _ => ho
    announced_of_challenges := nofun
    never_plain := fun h => hm (Option.some.inj h) }

/-- The output with one more challenge. -/
def pass (o : Output) (c : Challenge) (ha : o.announced? ≠ none) : Output :=
  { o with challenges := o.challenges ++ [c], announced_of_challenges := fun _ => ha }

/-- The output with the connection ended. -/
def disconnect (o : Output) : Output :=
  { o with disconnected := true }

variable {credentials : Credentials} {nonce : String}

theorem actions_connect {o : Output} (h : o.opened = false) (hd : o.disconnected = false) :
    o.connect.actions credentials nonce =
      o.actions credentials nonce ++ [.write (Stanza.streamHeader credentials.host).toBytes] := by
  have ha := announced?_eq_none h
  simp [actions, connect, h, hd, ha, challenges_eq_nil ha]

theorem actions_announce {o : Output} {m : Mechanism} (ho : o.opened = true) (hm : m ≠ .plain) (ha : o.announced? = none)
    (hd : o.disconnected = false) :
    (o.announce m ho hm).actions credentials nonce =
      o.actions credentials nonce ++ [.write (Stanza.announce m credentials.username nonce).toBytes] := by
  simp [actions, announce, ho, hd, ha, challenges_eq_nil ha]

theorem actions_pass {o : Output} {c : Challenge} (ha : o.announced? ≠ none) (hd : o.disconnected = false) :
    (o.pass c ha).actions credentials nonce = o.actions credentials nonce ++ [.challenge c] := by
  simp [actions, pass, hd]

theorem actions_disconnect {o : Output} (hd : o.disconnected = false) :
    o.disconnect.actions credentials nonce = o.actions credentials nonce ++ [.disconnect] := by
  cases ho : o.opened <;> simp [actions, disconnect, ho, hd]

end Output

/-! ## What a state shows of it -/

namespace Session

variable {credentials : Credentials} {nonce : String}

/-- The state of a session that has asked for an output so far. -/
structure Shows (credentials : Credentials) (nonce : String) (s : Session) (o : Output) : Prop where
  credentials : s.credentials = credentials
  nonce : s.nonce = nonce
  mechanism : s.mechanism? = o.announced?
  connecting : s.phase = .connecting → o.opened = false
  features : s.phase = .awaitingFeatures → o.opened = true ∧ o.announced? = none
  challenge : s.phase = .awaitingChallenge → o.announced? ≠ none
  connected : s.phase ≠ .closed → o.disconnected = false
  closed : s.phase = .closed → s.buffer = .empty
  held : s.held? ≠ none → s.phase = .closed

theorem shows_new (id : String) : (new id credentials nonce).Shows credentials nonce .empty :=
  ⟨rfl, rfl, rfl, fun _ => rfl, nofun, nofun, fun _ => rfl, nofun, fun h => absurd rfl h⟩

/-- An error that is held can be taken. -/
theorem Shows.taken {s : Session} {o : Output} (h : s.Shows credentials nonce o) :
    ({ s with held? := none } : Session).Shows credentials nonce o :=
  ⟨h.credentials, h.nonce, h.mechanism, h.connecting, h.features, h.challenge, h.connected, h.closed,
    fun hn => absurd rfl hn⟩

theorem Shows.close {s : Session} {o : Output} (h : s.Shows credentials nonce o) : s.close.Shows credentials nonce o :=
  ⟨h.credentials, h.nonce, h.mechanism, nofun, nofun, nofun, fun hp => absurd rfl hp, fun _ => rfl, fun _ => rfl⟩

theorem Waiting.ne_closed {s : Session} (h : s.Waiting) : s.phase ≠ .closed := by
  rcases h with h | h <;> rw [h] <;> nofun

/-- Bytes that come and go do not matter while the session waits. -/
theorem Shows.buffer {s t : Session} {o : Output} (h : s.Shows credentials nonce o) (hw : s.Waiting)
    (hc : t.credentials = s.credentials) (hn : t.nonce = s.nonce) (hm : t.mechanism? = s.mechanism?)
    (hp : t.phase = s.phase) (hh : t.held? = s.held?) : t.Shows credentials nonce o := by
  refine ⟨hc.trans h.credentials, hn.trans h.nonce, hm.trans h.mechanism, ?_, ?_, ?_, ?_, ?_, ?_⟩
  all_goals rw [hp]
  · exact h.connecting
  · exact h.features
  · exact h.challenge
  · exact h.connected
  · exact fun hcl => absurd hcl hw.ne_closed
  · exact hh ▸ h.held

/-- A drain asks for nothing out of order. -/
theorem Drains.shows {s : Session} {run : Run} (h : Drains s run) {o : Output} (hs : s.Shows credentials nonce o)
    (hw : s.Waiting) :
    ∃ o', run.session.Shows credentials nonce o' ∧ o'.disconnected = false ∧
      o'.actions credentials nonce = o.actions credentials nonce ++ run.actions := by
  induction h generalizing o with
  | quiet => exact ⟨o, hs, hs.connected hw.ne_closed, by simp⟩
  | fatal => exact ⟨o, hs.buffer hw rfl rfl rfl rfl rfl, hs.connected hw.ne_closed, by simp⟩
  | @answered s span a run hspan ha _ ih =>
    have hd := hs.connected hw.ne_closed
    obtain ⟨hk, _⟩ := Phase.frame?_of_firstSpan? (s.nextSpan?_eq ▸ hspan)
    rcases Phase.answer_of_watched hk ha with ⟨hp, _, m, hm, rfl⟩ | ⟨hp, _, c, rfl⟩
    · obtain ⟨ho, hnone⟩ := hs.features hp
      obtain ⟨o', ht, hd', hacts⟩ := ih (o := o.announce m ho hm)
        ⟨hs.credentials, hs.nonce, rfl, nofun, nofun, fun _ => nofun, fun _ => hd, nofun,
          fun h => absurd (hs.held h) hw.ne_closed⟩ (Or.inr rfl)
      refine ⟨o', ht, hd', ?_⟩
      rw [hacts, Output.actions_announce ho hm hnone hd, Answer.action, hs.credentials, hs.nonce]
      simp
    · have hann := hs.challenge hp
      obtain ⟨o', ht, hd', hacts⟩ := ih (o := o.pass c hann)
        ⟨hs.credentials, hs.nonce, hs.mechanism, fun h => hs.connecting h, fun h => hs.features h, fun _ => hann, fun _ => hd,
          fun h => absurd h hw.ne_closed, hs.held⟩ (Or.inr hp)
      refine ⟨o', ht, hd', ?_⟩
      rw [hacts, Output.actions_pass hann hd, Answer.action]
      simp

/-- A drain does not ask for the connection to be ended. -/
theorem Drains.disconnect_not_mem {s : Session} {run : Run} (h : Drains s run) : Action.disconnect ∉ run.actions := by
  induction h with
  | quiet => nofun
  | fatal => nofun
  | @answered _ _ a _ _ _ _ ih => cases a <;> simpa [Answer.action] using ih

/-- The end of a call asks for nothing out of order. -/
theorem Shows.runClose {run : Run} {o o' : Output} (ht : run.session.Shows credentials nonce o')
    (hd : o'.disconnected = false)
    (hacts : o'.actions credentials nonce = o.actions credentials nonce ++ run.actions) :
    ∃ o'', run.close.1.Shows credentials nonce o'' ∧
      o''.actions credentials nonce = o.actions credentials nonce ++ returned run.close.2 := by
  obtain ⟨t, actions, error?⟩ := run
  cases error? with
  | none => exact ⟨o', ht, hacts⟩
  | some e =>
    cases actions with
    | nil => exact ⟨o', ht.close, hacts⟩
    | cons action actions =>
      have hc := ht.close
      refine ⟨o'.disconnect, ⟨hc.credentials, hc.nonce, hc.mechanism, nofun, nofun, nofun, fun hp => absurd rfl hp,
        fun _ => rfl, fun _ => rfl⟩, ?_⟩
      rw [Output.actions_disconnect hd, hacts]
      exact List.append_assoc _ _ _

/-- A session that opens the stream has asked for that. -/
theorem Shows.openStream {s : Session} {o : Output} (hs : s.Shows credentials nonce o) (hp : s.phase = .connecting)
    (hh : s.held? = none) : s.openStream.1.Shows credentials nonce o.connect := by
  have ha := Output.announced?_eq_none (hs.connecting hp)
  have hd := hs.connected (by rw [hp]; decide)
  exact ⟨hs.credentials, hs.nonce, hs.mechanism, nofun, fun _ => ⟨rfl, ha⟩, nofun, fun _ => hd, nofun,
    fun hn => absurd hh hn⟩

/-- One call asks for nothing out of order. -/
theorem shows_call {s : Session} {o : Output} (hs : s.Shows credentials nonce o) (op : Operation) :
    ∃ o', (s.call op).1.Shows credentials nonce o' ∧
      o'.actions credentials nonce = o.actions credentials nonce ++ returned (s.call op).2 := by
  have hnil : o.actions credentials nonce = o.actions credentials nonce ++ [] := (List.append_nil _).symm
  cases op with
  | close => exact ⟨o, hs.close, hnil⟩
  | takeError => exact ⟨o, hs.taken, hnil⟩
  | handle event =>
    cases hh : s.held? with
    | some e =>
      rw [call, handle_of_held hh]
      exact ⟨o, hs.taken, hnil⟩
    | none =>
      rw [call, handle_of_free hh]
      rcases advance_cases s event with ⟨_, hp, ha⟩ | ⟨bytes, _, hw, ha⟩ | ⟨e, ha⟩
      · have ho := hs.connecting hp
        have hd := hs.connected (by rw [hp]; decide)
        rw [ha]
        refine Shows.runClose (hs.openStream hp hh) hd ?_
        rw [Output.actions_connect ho hd, ← hs.credentials]
        rfl
      · have hr : (s.receiving bytes).Shows credentials nonce o := hs.buffer hw rfl rfl rfl rfl rfl
        obtain ⟨o', ht, hd, hacts⟩ := (drains_drain (s.receiving bytes)).shows hr hw
        rw [ha]
        exact ht.runClose hd hacts
      · rw [ha]
        exact ⟨o, hs.close, hnil⟩

/-- A run of calls asks for nothing out of order. -/
theorem shows_calls (ops : List Operation) {s : Session} {o : Output} (hs : s.Shows credentials nonce o) :
    ∃ o', (s.calls ops).1.Shows credentials nonce o' ∧
      o'.actions credentials nonce = o.actions credentials nonce ++ (s.calls ops).2.flatten := by
  induction ops generalizing s o with
  | nil => exact ⟨o, hs, (List.append_nil _).symm⟩
  | cons op ops ih =>
    obtain ⟨o', ht, hacts⟩ := shows_call hs op
    obtain ⟨o'', hu, hacts'⟩ := ih ht
    refine ⟨o'', hu, ?_⟩
    rw [hacts', hacts, calls, List.flatten_cons, List.append_assoc]

/-! ## Ends -/

/-- No event brings about a request to end the connection by itself. -/
theorem disconnect_not_mem_advance (s : Session) (event : Event) : .disconnect ∉ (s.advance event).actions := by
  rcases advance_cases s event with ⟨_, _, ha⟩ | ⟨bytes, _, _, ha⟩ | ⟨e, ha⟩
  · rw [ha, List.mem_singleton]
    nofun
  · rw [ha]
    exact (drains_drain _).disconnect_not_mem
  · rw [ha]
    nofun

/-- A call asks for the connection to be ended only behind something else, and then as the last thing. -/
theorem disconnect_last {s : Session} {op : Operation} (h : .disconnect ∈ returned (s.call op).2) :
    ∃ earlier, earlier ≠ [] ∧ .disconnect ∉ earlier ∧ returned (s.call op).2 = earlier ++ [.disconnect] := by
  cases op with
  | close => cases h
  | takeError => cases h
  | handle event =>
    cases hh : s.held? with
    | some e =>
      rw [call, handle_of_held hh] at h
      cases h
    | none =>
      rw [call, handle_of_free hh] at h ⊢
      have hrun := disconnect_not_mem_advance s event
      generalize s.advance event = run at h hrun ⊢
      obtain ⟨t, actions, error?⟩ := run
      cases error? with
      | none => exact absurd h hrun
      | some e =>
        cases actions with
        | nil => cases h
        | cons action actions => exact ⟨action :: actions, List.cons_ne_nil _ _, hrun, rfl⟩

/-- A call that ends on an error closes, and so does one that asks for the connection to be ended. -/
theorem closed_of_runClose {run : Run} (hrun : .disconnect ∉ run.actions)
    (h : (∃ e, run.close.2 = .error e) ∨ .disconnect ∈ returned run.close.2) : run.close.1.phase = .closed := by
  obtain ⟨t, actions, error?⟩ := run
  cases error? with
  | none =>
    rcases h with ⟨e, h⟩ | h
    · cases h
    · exact absurd h hrun
  | some e => cases actions <;> rfl

/-- A session is closed by a call that returns an error, by one that asks for the connection to be ended, and by a close. -/
theorem closed_of_call {s : Session} {o : Output} (hs : s.Shows credentials nonce o) {op : Operation}
    (h : (∃ e, (s.call op).2 = .error e) ∨ .disconnect ∈ returned (s.call op).2 ∨ op = .close) :
    (s.call op).1.phase = .closed := by
  cases op with
  | close => rfl
  | takeError => rcases h with ⟨_, h⟩ | h | h <;> cases h
  | handle event =>
    have h' : (∃ e, (s.handle event).2 = .error e) ∨ .disconnect ∈ returned (s.handle event).2 := by
      rcases h with h | h | h
      · exact Or.inl h
      · exact Or.inr h
      · cases h
    rw [call]
    cases hh : s.held? with
    | some e =>
      rw [handle_of_held hh]
      exact hs.held (by rw [hh]; exact Option.some_ne_none e)
    | none =>
      rw [handle_of_free hh] at h' ⊢
      exact closed_of_runClose (disconnect_not_mem_advance s event) h'

/-- What a run of calls returned was returned by one of its calls. -/
theorem exists_call_of_mem {actions : List Action} (ops : List Operation) {s : Session} (h : actions ∈ (s.calls ops).2) :
    ∃ t op, actions = returned (call t op).2 := by
  induction ops generalizing s with
  | nil => cases h
  | cons op ops ih =>
    rw [calls, List.mem_cons] at h
    rcases h with h | h
    · exact ⟨s, op, h⟩
    · exact ih h

/-! ## Whole runs -/

/-- What a session asks for, over all calls, in four parts. Whatever a caller does with a new session:
1. Put end to end, the actions are the parts of an `Output`: the stream header of the host, then the announcement of the
   session's mechanism, which is never PLAIN, then challenges, then one request to end the connection, each of them only behind
   the one before it.
2. The request to end the connection stands at the end of a call, with other actions of the same call before it.
3. A call that returns an error or such a request closes the session, and so does a close.
4. A closed session has an empty buffer. No calls after that change more of it than the error that it holds, and it returns an
   error for every event. -/
theorem output_of_calls (id : String) (credentials : Credentials) (nonce : String) (ops : List Operation) :
    let run := (new id credentials nonce).calls ops
    (∃ o : Output, run.2.flatten = o.actions credentials nonce ∧ run.1.mechanism? = o.announced?) ∧
      (∀ actions ∈ run.2, .disconnect ∈ actions →
        ∃ earlier, earlier ≠ [] ∧ .disconnect ∉ earlier ∧ actions = earlier ++ [.disconnect]) ∧
      (∀ op, (∃ e, (run.1.call op).2 = .error e) ∨ .disconnect ∈ returned (run.1.call op).2 ∨ op = .close →
        (run.1.call op).1.phase = .closed) ∧
      (run.1.phase = .closed → run.1.buffer = .empty ∧ ∀ later,
        (∃ held?, (run.1.calls later).1 = { run.1 with held? := held? }) ∧
          ∀ event, ∃ e, ((run.1.calls later).1.handle event).2 = .error e) := by
  intro run
  have hnew : (new id credentials nonce).Shows credentials nonce .empty := shows_new id
  obtain ⟨o, hs, hacts⟩ := shows_calls ops hnew
  refine ⟨⟨o, hacts.symm, hs.mechanism⟩, ?_, fun op h => closed_of_call hs h, ?_⟩
  · intro actions hm hd
    obtain ⟨t, op, rfl⟩ := exists_call_of_mem ops hm
    exact disconnect_last hd
  · intro hp
    refine ⟨hs.closed hp, fun later => ?_⟩
    obtain ⟨held?, ht⟩ := calls_of_closed hp (hs.closed hp) later
    exact ⟨⟨held?, ht⟩, handle_of_closed (by rw [ht]; exact hp)⟩

end Session

end StreamAuth
