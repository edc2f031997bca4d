import StreamAuth.Proofs.Answers

/-!
# The steps of a session

What one call of a session can do, said once. `Drains` is the loop over the complete spans of the buffer as a relation, one
constructor for each way in which a turn of it can go; `advance_cases` lists what an event can bring about; `handle_of_held` and
`handle_of_free` say how a call ends. What holds along every run of calls is proved from these by induction.
-/

namespace StreamAuth.Session

/-! ## The loop over the complete spans -/

/-- How a drain goes: to an end without a span, to a fatal span, or over an answered one to the drain that follows. -/
inductive Drains : Session → Run → Prop where
  | quiet {s : Session} : s.nextSpan? = none → Drains s ⟨s, [], none⟩
  | fatal {s : Session} {span : Span SpanKind} {e : Error} :
      s.nextSpan? = some span → span.kind.answer span.bytes = .error e → Drains s ⟨s.take span, [], some e⟩
  | answered {s : Session} {span : Span SpanKind} {a : Answer} {run : Run} :
      s.nextSpan? = some span → span.kind.answer span.bytes = .ok a → Drains ((s.take span).give a) run →
      Drains s { run with actions := a.action s.credentials s.nonce :: run.actions }

theorem drain_of_none {s : Session} (h : s.nextSpan? = none) : s.drain = ⟨s, [], none⟩ := by
  rw [drain]
  split
  · rfl
  · rename_i hs
    cases h.symm.trans hs

theorem drain_of_error {s : Session} {span : Span SpanKind} {e : Error} (h : s.nextSpan? = some span)
    (ha : span.kind.answer span.bytes = .error e) : s.drain = ⟨s.take span, [], some e⟩ := by
  have hr := (react_eq_error_iff (s := s.take span)).mpr ha
  rw [drain]
  split
  · rename_i hs
    cases h.symm.trans hs
  · rename_i hs
    cases h.symm.trans hs
    split
    · rename_i hr'
      cases hr.symm.trans hr'
      rfl
    · rename_i hr'
      cases hr.symm.trans hr'

theorem drain_of_ok {s : Session} {span : Span SpanKind} {a : Answer} (h : s.nextSpan? = some span)
    (ha : span.kind.answer span.bytes = .ok a) :
    s.drain =
      { ((s.take span).give a).drain with
        actions := a.action s.credentials s.nonce :: ((s.take span).give a).drain.actions } := by
  have hr := (react_eq_ok_iff (s := s.take span)).mpr ⟨a, ha, rfl, rfl⟩
  rw [drain]
  split
  · rename_i hs
    cases h.symm.trans hs
  · rename_i hs
    cases h.symm.trans hs
    split
    · rename_i hr'
      cases hr.symm.trans hr'
    · rename_i hr'
      cases hr.symm.trans hr'
      rfl

/-- A drain goes as `Drains` says. -/
theorem drains_drain (s : Session) : Drains s s.drain := by
  induction s using drain.induct with
  | case1 s h =>
    rw [drain_of_none h]
    exact .quiet h
  | case2 s span h e hr =>
    have ha := react_eq_error_iff.mp hr
    rw [drain_of_error h ha]
    exact .fatal h ha
  | case3 s span h t action hr ih =>
    obtain ⟨a, ha, rfl, _⟩ := react_eq_ok_iff.mp hr
    rw [drain_of_ok h ha]
    exact .answered h ha ih

/-! ## What a call can do -/

/-- The session after bytes have arrived, before any of them is looked at. -/
def receiving (s : Session) (bytes : Bytes) : Session :=
  { s with buffer := s.buffer.append bytes, bytesReceived := s.bytesReceived + bytes.length }

/-- Whether the session waits for a stanza. -/
def Waiting (s : Session) : Prop :=
  s.phase = .awaitingFeatures ∨ s.phase = .awaitingChallenge

/-- Bytes that arrive while the session waits for a stanza are added to the buffer, and what is complete is drained. -/
theorem advance_received {s : Session} (h : s.Waiting) (bytes : Bytes) :
    s.advance (.received bytes) = (s.receiving bytes).drain := by
  unfold advance
  rcases h with h | h <;> simp only [h, receiving]

/-- A connection opens the stream if it is waited for. -/
theorem advance_connected {s : Session} (h : s.phase = .connecting) :
    s.advance .connected = ⟨s.openStream.1, [s.openStream.2], none⟩ := by
  simp only [advance, h]

/-- A connection that is not waited for is an error. -/
theorem advance_connected_of_ne {s : Session} (h : s.phase ≠ .connecting) :
    s.advance .connected = ⟨s, [], some (.misplaced (.connected s.phase))⟩ := by
  unfold advance
  cases hp : s.phase
  case connecting => exact absurd hp h
  all_goals rfl

/-- Bytes are an error if no stanza is waited for. -/
theorem advance_received_of_not {s : Session} (h : ¬s.Waiting) (bytes : Bytes) :
    s.advance (.received bytes) = ⟨s, [], some (.misplaced (.received bytes.length s.phase))⟩ := by
  unfold advance
  cases hp : s.phase
  case awaitingFeatures => exact absurd (Or.inl hp) h
  case awaitingChallenge => exact absurd (Or.inr hp) h
  all_goals rfl

/-- An event opens the stream, or it brings bytes to a session that waits for them; in every other case it is an error. -/
theorem advance_cases (s : Session) (event : Event) :
    (event = .connected ∧ s.phase = .connecting ∧ s.advance event = ⟨s.openStream.1, [s.openStream.2], none⟩) ∨
      (∃ bytes, event = .received bytes ∧ s.Waiting ∧ s.advance event = (s.receiving bytes).drain) ∨
      ∃ e, s.advance event = ⟨s, [], some e⟩ := by
  cases event with
  | connected =>
    by_cases hp : s.phase = .connecting
    · exact Or.inl ⟨rfl, hp, advance_connected hp⟩
    · exact Or.inr (Or.inr ⟨_, advance_connected_of_ne hp⟩)
  | received bytes =>
    by_cases hw : s.Waiting
    · exact Or.inr (Or.inl ⟨bytes, rfl, hw, advance_received hw bytes⟩)
    · exact Or.inr (Or.inr ⟨_, advance_received_of_not hw bytes⟩)
  | failed fault => exact Or.inr (Or.inr ⟨.transport fault, rfl⟩)

/-- A call on a session that holds an error returns the error, and does nothing else. -/
theorem handle_of_held {s : Session} {e : Error} (h : s.held? = some e) (event : Event) :
    s.handle event = ({ s with held? := none }, .error e) := by
  simp only [handle, h]

/-- How a call ends that was not handed an error: an error closes, and is held if there is output to return first. -/
def Run.close (run : Run) : Session × Except Error (List Action) :=
  match run.error?, run.actions with
  | none, actions => (run.session, .ok actions)
  | some e, [] => (run.session.close, .error e)
  | some e, actions => ({ run.session.close with held? := some e }, .ok (actions ++ [.disconnect]))

/-- A call on a session that holds no error is what the event brings about, and an end to it. -/
theorem handle_of_free {s : Session} (h : s.held? = none) (event : Event) : s.handle event = (s.advance event).close := by
  unfold handle Run.close
  rw [h]
  obtain ⟨t, actions, error?⟩ := s.advance event
  cases error? <;> cases actions <;> rfl

/-! ## Runs of calls -/

/-- What a caller can do with a session. -/
inductive Operation where
  /-- Have an event handled. -/
  | handle (event : Event)
  /-- Close the session. -/
  | close
  /-- Take the error that is held. -/
  | takeError

/-- One call: the session after it, and what it returned. Only an event can bring about actions or an error. -/
def call (s : Session) : Operation → Session × Except Error (List Action)
  | .handle event => s.handle event
  | .close => (s.close, .ok [])
  | .takeError => (s.takeError.2, .ok [])

/-- The actions that a call returned. -/
def returned : Except Error (List Action) → List Action
  | .ok actions => actions
  | .error _ => []

/-- A call that brings bytes to a session that waits for them is a drain, and an end to it. -/
theorem call_received {s : Session} (hh : s.held? = none) (hw : s.Waiting) (bytes : Bytes) :
    s.call (.handle (.received bytes)) = (s.receiving bytes).drain.close := by
  rw [call, handle_of_free hh, advance_received hw]

/-- A run of calls: the session after it, and the actions that each of them returned. -/
def calls (s : Session) : List Operation → Session × List (List Action)
  | [] => (s, [])
  | op :: ops =>
    let rest := (s.call op).1.calls ops
    (rest.1, returned (s.call op).2 :: rest.2)

/-- A closed session returns an error for every event. -/
theorem handle_of_closed {s : Session} (hp : s.phase = .closed) (event : Event) : ∃ e, (s.handle event).2 = .error e := by
  cases hh : s.held? with
  | some e => exact ⟨e, by rw [handle_of_held hh]⟩
  | none =>
    rw [handle_of_free hh]
    rcases advance_cases s event with ⟨_, hc, _⟩ | ⟨_, _, hw, _⟩ | ⟨e, ha⟩
    · rw [hp] at hc
      cases hc
    · rcases hw with hw | hw <;> rw [hp] at hw <;> cases hw
    · exact ⟨e, by rw [ha]; rfl⟩

/-- A closed session changes in nothing but the error that it holds. -/
theorem call_of_closed {s : Session} (hp : s.phase = .closed) (hb : s.buffer = .empty) (op : Operation) :
    ∃ held?, (s.call op).1 = { s with held? := held? } := by
  have hclose : s.close = s := by
    unfold close
    rw [← hp, ← hb]
  cases op with
  | close => exact ⟨s.held?, hclose⟩
  | takeError => exact ⟨none, rfl⟩
  | handle event =>
    cases hh : s.held? with
    | some e => exact ⟨none, by rw [call, handle_of_held hh]⟩
    | none =>
      rw [call, handle_of_free hh]
      rcases advance_cases s event with ⟨_, hc, _⟩ | ⟨_, _, hw, _⟩ | ⟨e, ha⟩
      · rw [hp] at hc
        cases hc
      · rcases hw with hw | hw <;> rw [hp] at hw <;> cases hw
      · exact ⟨s.held?, by rw [ha]; exact hclose⟩

/-- A closed session is closed for good: no run of calls changes more than the error that it holds. -/
theorem calls_of_closed {s : Session} (hp : s.phase = .closed) (hb : s.buffer = .empty) (ops : List Operation) :
    ∃ held?, (s.calls ops).1 = { s with held? := held? } := by
  induction ops generalizing s with
  | nil => exact ⟨s.held?, rfl⟩
  | cons op ops ih =>
    obtain ⟨held?, hs⟩ := call_of_closed hp hb op
    obtain ⟨held?', ht⟩ := ih (s := (s.call op).1) (by rw [hs]; exact hp) (by rw [hs]; exact hb)
    exact ⟨held?', by rw [calls, ht, hs]⟩

end StreamAuth.Session
