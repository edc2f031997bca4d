import StreamAuth.Proofs.Output

/-!
# The course of a session

What a run of events comes to does not depend on how a caller is told of it. `course` lets the events follow one another until
the first of them ends on an error, and knows neither held errors nor requests to end the connection. An open session that
handles the events goes through its course (`calls_eq_course`), and so does any other way of driving a session that hands it the
same events.
-/

namespace StreamAuth.Session

/-! ## Open sessions -/

/-- A session that was not closed, and so has nothing to tell. -/
structure IsOpen (s : Session) : Prop where
  phase : s.phase ≠ .closed
  held : s.held? = none

theorem isOpen_new (id : String) (credentials : Credentials) (nonce : String) : (new id credentials nonce).IsOpen :=
  ⟨nofun, rfl⟩

theorem IsOpen.isClosed_eq_false {s : Session} (h : s.IsOpen) : s.isClosed = false := by
  have hp := h.phase
  cases hs : s.phase <;> simp_all [isClosed]

theorem isClosed_of_closed {s : Session} (h : s.phase = .closed) : s.isClosed = true := by
  rw [isClosed, h]
  rfl

/-- A drain neither takes nor sets the error that is held. -/
theorem Drains.held {s : Session} {run : Run} (h : Drains s run) : run.session.held? = s.held? := by
  induction h with
  | quiet => rfl
  | fatal => rfl
  | @answered s span a run _ _ _ ih =>
    rw [ih]
    cases a <;> rfl

/-- A drain ends in a session that waits for more, also if it ends on an error. -/
theorem Drains.waiting {s : Session} {run : Run} (h : Drains s run) (hw : s.Waiting) : run.session.Waiting := by
  induction h with
  | quiet => exact hw
  | fatal => exact hw
  | @answered s span a run _ _ _ ih =>
    refine ih ?_
    cases a with
    | announce m => exact Or.inr rfl
    | pass c => exact hw

/-- An event neither takes nor sets the error that is held. -/
theorem held?_advance (s : Session) (event : Event) : (s.advance event).session.held? = s.held? := by
  rcases advance_cases s event with ⟨_, _, ha⟩ | ⟨bytes, _, _, ha⟩ | ⟨e, ha⟩
  · rw [ha]
    rfl
  · rw [ha]
    exact (drains_drain (s.receiving bytes)).held
  · rw [ha]

/-- An event that ends on no error leaves the session waiting for a stanza. -/
theorem waiting_of_advance {s : Session} {event : Event} (he : (s.advance event).error? = none) :
    (s.advance event).session.Waiting := by
  rcases advance_cases s event with ⟨_, _, ha⟩ | ⟨bytes, _, hw, ha⟩ | ⟨e, ha⟩
  · rw [ha]
    exact Or.inl rfl
  · rw [ha]
    exact (drains_drain (s.receiving bytes)).waiting hw
  · rw [ha] at he
    cases he

/-- An event that ends on no error leaves an open session open. -/
theorem IsOpen.advance {s : Session} (h : s.IsOpen) {event : Event} (he : (s.advance event).error? = none) :
    (s.advance event).session.IsOpen :=
  ⟨(waiting_of_advance he).ne_closed, (held?_advance s event).trans h.held⟩

/-- A closed session with an empty buffer is as it was after another close. -/
theorem close_of_closed {s : Session} (hp : s.phase = .closed) (hb : s.buffer = .empty) : s.close = s := by
  unfold close
  rw [← hp, ← hb]

/-- Every event ends on an error at once if the session is closed. -/
theorem advance_of_closed {s : Session} (hp : s.phase = .closed) (event : Event) : ∃ e, s.advance event = ⟨s, [], some e⟩ := by
  rcases advance_cases s event with ⟨_, hc, _⟩ | ⟨_, _, hw, _⟩ | h
  · rw [hp] at hc
    cases hc
  · exact absurd hp hw.ne_closed
  · exact h

/-! ## The course of events -/

/-- What a run of events comes to, one after the other up to the first error, which closes the session. -/
def course (s : Session) : List Event → Run
  | [] => ⟨s, [], none⟩
  | event :: events =>
    match s.advance event with
    | ⟨t, actions, some e⟩ => ⟨t.close, actions, some e⟩
    | ⟨t, actions, none⟩ =>
      let rest := t.course events
      { rest with actions := actions ++ rest.actions }

theorem course_of_error {s : Session} {event : Event} {e : Error} (h : (s.advance event).error? = some e)
    (events : List Event) : s.course (event :: events) = ⟨(s.advance event).session.close, (s.advance event).actions, some e⟩ := by
  rw [course]
  generalize s.advance event = run at h
  obtain ⟨t, actions, error?⟩ := run
  cases h
  rfl

theorem course_of_ok {s : Session} {event : Event} (h : (s.advance event).error? = none) (events : List Event) :
    s.course (event :: events) =
      { (s.advance event).session.course events with
        actions := (s.advance event).actions ++ ((s.advance event).session.course events).actions } := by
  rw [course]
  generalize s.advance event = run at h
  obtain ⟨t, actions, error?⟩ := run
  cases h
  rfl

/-- The course of an open session closes it exactly if it ends on an error, and nothing is buffered then. -/
theorem IsOpen.course {s : Session} (h : s.IsOpen) (events : List Event) :
    ((s.course events).error? = none → (s.course events).session.IsOpen) ∧
      ((s.course events).error? ≠ none →
        (s.course events).session.phase = .closed ∧ (s.course events).session.buffer = .empty) := by
  induction events generalizing s with
  | nil => exact ⟨fun _ => h, fun he => absurd rfl he⟩
  | cons event events ih =>
    cases he : (s.advance event).error? with
    | some e =>
      rw [course_of_error he]
      exact ⟨nofun, fun _ => ⟨rfl, rfl⟩⟩
    | none =>
      rw [course_of_ok he]
      exact ih (h.advance he)

/-- The course of an open session closes it if it ends on an error, and only then. -/
theorem IsOpen.closed_course_iff {s : Session} (h : s.IsOpen) (events : List Event) :
    (s.course events).session.phase = .closed ↔ (s.course events).error?.isSome := by
  obtain ⟨hopen, hclosed⟩ := h.course events
  rw [Option.isSome_iff_ne_none]
  exact ⟨fun hp he => (hopen he).phase hp, fun he => (hclosed he).1⟩

/-- No event of a course brings about a request to end the connection. -/
theorem disconnect_not_mem_course (s : Session) (events : List Event) : .disconnect ∉ (s.course events).actions := by
  induction events generalizing s with
  | nil => nofun
  | cons event events ih =>
    have hevent := disconnect_not_mem_advance s event
    cases he : (s.advance event).error? with
    | some e =>
      rw [course_of_error he]
      exact hevent
    | none =>
      rw [course_of_ok he, List.mem_append]
      exact not_or.mpr ⟨hevent, ih _⟩

/-! ## Handling the events -/

/-- What an action writes. -/
def writeOf? : Action → Option Bytes
  | .write bytes => some bytes
  | _ => none

/-- Actions that write the same and hand out the same challenges, in the same order. -/
structure SameOutput (actions others : List Action) : Prop where
  writes : actions.filterMap writeOf? = others.filterMap writeOf?
  challenges : actions.filterMap challengeOf? = others.filterMap challengeOf?

theorem SameOutput.refl (actions : List Action) : SameOutput actions actions :=
  ⟨rfl, rfl⟩

theorem SameOutput.append {actions others more same : List Action} (h : SameOutput actions others) (h' : SameOutput more same) :
    SameOutput (actions ++ more) (others ++ same) :=
  ⟨by simp only [List.filterMap_append, h.writes, h'.writes],
    by simp only [List.filterMap_append, h.challenges, h'.challenges]⟩

/-- A request to end the connection is no output. -/
theorem sameOutput_disconnect (actions : List Action) : SameOutput (actions ++ [.disconnect]) actions :=
  ⟨by rw [List.filterMap_append]; exact List.append_nil _, by rw [List.filterMap_append]; exact List.append_nil _⟩

/-- How a call ends does not change its output. -/
theorem Run.sameOutput_close (run : Run) : SameOutput (returned run.close.2) run.actions := by
  obtain ⟨t, actions, error?⟩ := run
  cases error? with
  | none => exact .refl actions
  | some e =>
    cases actions with
    | nil => exact .refl []
    | cons action actions => exact sameOutput_disconnect (action :: actions)

/-- How a call ends changes nothing of the session but what it waits for, what is buffered and what is held. -/
theorem Run.session_close (run : Run) :
    ∃ phase buffer held?, run.close.1 = { run.session with phase := phase, buffer := buffer, held? := held? } := by
  obtain ⟨t, actions, error?⟩ := run
  cases error? with
  | none => exact ⟨t.phase, t.buffer, t.held?, rfl⟩
  | some e =>
    cases actions with
    | nil => exact ⟨.closed, .empty, t.held?, rfl⟩
    | cons action actions => exact ⟨.closed, .empty, some e, rfl⟩

/-- An open session returns what an event that ends on no error asks for. -/
theorem IsOpen.handle_of_ok {s : Session} (h : s.IsOpen) {event : Event} (he : (s.advance event).error? = none) :
    s.handle event = ((s.advance event).session, .ok (s.advance event).actions) := by
  rw [handle_of_free h.held, Run.close, he]

/-- An event that ends on an error closes an open session, and the error is returned if there is no output, and held behind
the output otherwise. -/
theorem IsOpen.handle_of_error {s : Session} (h : s.IsOpen) {event : Event} {e : Error}
    (he : (s.advance event).error? = some e) :
    ((s.advance event).actions = [] ∧
        s.handle event = ({ (s.advance event).session.close with held? := none }, .error e)) ∨
      ((s.advance event).actions ≠ [] ∧
        s.handle event =
          ({ (s.advance event).session.close with held? := some e }, .ok ((s.advance event).actions ++ [.disconnect]))) := by
  have hheld := (held?_advance s event).trans h.held
  rw [handle_of_free h.held]
  generalize s.advance event = run at he hheld ⊢
  obtain ⟨t, actions, error?⟩ := run
  cases he
  cases actions with
  | nil =>
    refine Or.inl ⟨rfl, ?_⟩
    rw [← hheld]
    rfl
  | cons action actions => exact Or.inr ⟨List.cons_ne_nil _ _, rfl⟩

/-- A closed session asks for nothing. -/
theorem flatten_calls_of_closed {s : Session} (hp : s.phase = .closed) (hb : s.buffer = .empty) (ops : List Operation) :
    (s.calls ops).2.flatten = [] := by
  induction ops generalizing s with
  | nil => rfl
  | cons op ops ih =>
    obtain ⟨held?, hs⟩ := call_of_closed hp hb op
    have hnil : returned (s.call op).2 = [] := by
      cases op with
      | close => rfl
      | takeError => rfl
      | handle event =>
        obtain ⟨e, he⟩ := handle_of_closed hp event
        rw [call, he]
        rfl
    rw [calls, List.flatten_cons, hnil, List.nil_append]
    exact ih (by rw [hs]; exact hp) (by rw [hs]; exact hb)

/-- A call that closes, with calls behind it, leaves the session as it closed it, and what it returned. -/
theorem calls_of_closing {s t : Session} {event : Event} {result : Except Error (List Action)}
    (h : s.handle event = (t, result)) (hp : t.phase = .closed) (hb : t.buffer = .empty) (events : List Event) :
    ∃ held?, (s.calls ((event :: events).map .handle)).1 = { t with held? := held? } ∧
      (s.calls ((event :: events).map .handle)).2.flatten = returned result := by
  obtain ⟨held?, hs⟩ := calls_of_closed hp hb (events.map .handle)
  have hcall : s.call (.handle event) = (t, result) := h
  refine ⟨held?, ?_, ?_⟩
  · rw [List.map_cons, calls, hcall, hs]
  · rw [List.map_cons, calls, hcall, List.flatten_cons, flatten_calls_of_closed hp hb, List.append_nil]

/-- An open session that handles events goes through their course, and returns the output of it. While it is open it holds no
error. -/
theorem IsOpen.calls_eq_course {s : Session} (h : s.IsOpen) (events : List Event) :
    ∃ held?, (s.calls (events.map .handle)).1 = { (s.course events).session with held? := held? } ∧
      SameOutput (s.calls (events.map .handle)).2.flatten (s.course events).actions ∧
      ((s.course events).error? = none → held? = none) := by
  induction events generalizing s with
  | nil =>
    refine ⟨none, ?_, .refl [], fun _ => rfl⟩
    rw [← h.held]
    rfl
  | cons event events ih =>
    cases he : (s.advance event).error? with
    | none =>
      obtain ⟨held?, hs, hout, hheld⟩ := ih (h.advance he)
      have hcall : s.call (.handle event) = ((s.advance event).session, .ok (s.advance event).actions) := h.handle_of_ok he
      rw [course_of_ok he, List.map_cons, calls, hcall]
      exact ⟨held?, hs, (SameOutput.refl _).append hout, hheld⟩
    | some e =>
      rw [course_of_error he]
      rcases h.handle_of_error he with ⟨hnil, hcall⟩ | ⟨_, hcall⟩
      · obtain ⟨held?, hs, hout⟩ := calls_of_closing hcall rfl rfl events
        exact ⟨held?, hs, by rw [hout, hnil]; exact .refl [], (absurd · (Option.some_ne_none e))⟩
      · obtain ⟨held?, hs, hout⟩ := calls_of_closing hcall rfl rfl events
        exact ⟨held?, hs, by rw [hout]; exact sameOutput_disconnect _, (absurd · (Option.some_ne_none e))⟩

end StreamAuth.Session
