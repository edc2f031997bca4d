import StreamAuth.Proofs.Course

/-!
# Driving a session on a transport

A driver hands its session the events of a transport, and may take the error that is held at any time. However it mixes the two,
session and transport go through the course of the events (`IsOpen.drive_eq_course`): what is asked of the transport is what the
course writes, with one request to end the connection behind it once the course has ended on an error. The error itself is told
once, by the step that closes the session or by the first move after it.
-/

namespace StreamAuth.Session

/-! ## Drivers -/

/-- What a driver does that never closes its session. -/
inductive Move where
  /-- Have an event handled on the transport. -/
  | dispatch (event : Event)
  /-- Take the error that is held. -/
  | takeError

/-- The event that a move hands over. -/
def Move.event? : Move → Option Event
  | .dispatch event => some event
  | .takeError => none

/-- The events that some moves hand over. -/
def Move.events (moves : List Move) : List Event :=
  moves.filterMap Move.event?

/-- One move: the session and the transport after it, and the challenges or the error that it returned. -/
def move {τ : Type} [Transport τ] (s : Session) (transport : τ) : Move → Session × τ × Except Error (List Challenge)
  | .dispatch event => s.dispatch event transport
  | .takeError =>
    match s.takeError with
    | (some e, t) => (t, transport, .error e)
    | (none, t) => (t, transport, .ok [])

/-- The challenges that a move returned. -/
def handedOut : Except Error (List Challenge) → List Challenge
  | .ok challenges => challenges
  | .error _ => []

/-- Where some moves have led. -/
structure Drive (τ : Type) where
  /-- The session. -/
  session : Session
  /-- Its transport. -/
  transport : τ
  /-- The challenges that the moves returned. -/
  challenges : List Challenge

/-- Some moves, one after the other. -/
def drive {τ : Type} [Transport τ] (s : Session) (transport : τ) : List Move → Drive τ
  | [] => ⟨s, transport, []⟩
  | m :: moves =>
    match s.move transport m with
    | (t, transport, result) =>
      let rest := t.drive transport moves
      { rest with challenges := handedOut result ++ rest.challenges }

/-! ## What is asked of a transport -/

/-- What a run asks of a transport: what it asks for, and the end of the connection if it ended on an error. -/
def Run.requests (run : Run) : List Action :=
  run.actions ++ (if run.error?.isSome then [.disconnect] else [])

variable {τ : Type} [Transport τ]

/-- Of what is asked for, a transport sees the writes and the end of the connection. -/
theorem foldl_perform_of_not_mem (actions : List Action) (h : .disconnect ∉ actions) (transport : τ) :
    actions.foldl perform transport = ((actions.filterMap writeOf?).map .write).foldl perform transport := by
  induction actions generalizing transport with
  | nil => rfl
  | cons action actions ih =>
    obtain ⟨hne, hrest⟩ := List.ne_and_not_mem_of_not_mem_cons h
    cases action with
    | write bytes => exact ih hrest _
    | challenge c => exact ih hrest _
    | disconnect => exact absurd rfl hne

/-- A recorder keeps what is written, and counts how often the connection is ended. -/
theorem foldl_perform_recorder (actions : List Action) (recorder : Recorder) :
    actions.foldl perform recorder =
      ⟨recorder.writes ++ actions.filterMap writeOf?, recorder.disconnects + actions.count .disconnect⟩ := by
  induction actions generalizing recorder with
  | nil => simp
  | cons action actions ih =>
    rw [List.foldl_cons, ih]
    cases action with
    | write bytes => simp [perform, Transport.write, writeOf?]
    | challenge c => simp [perform, writeOf?, List.filterMap_cons]
    | disconnect =>
      simp only [perform, Transport.disconnect, writeOf?, List.filterMap_cons, List.count_cons_self, Recorder.mk.injEq,
        true_and]
      omega

/-- A request to end the connection is no output, and is made once if the run has ended on an error. -/
theorem Run.sameOutput_requests (run : Run) : SameOutput run.requests run.actions := by
  unfold Run.requests
  split
  · exact sameOutput_disconnect run.actions
  · rw [List.append_nil]
    exact .refl _

/-- What a transport sees of a run: the writes, and behind them the end of the connection if the run ended on an error. -/
theorem Run.foldl_requests {run : Run} (h : .disconnect ∉ run.actions) (transport : τ) :
    run.requests.foldl perform transport =
      ((run.actions.filterMap writeOf?).map Action.write ++ if run.error?.isSome then [Action.disconnect] else []).foldl
        perform transport := by
  rw [Run.requests, List.foldl_append, foldl_perform_of_not_mem run.actions h, List.foldl_append]

/-- What a recorder keeps of a run. -/
theorem Run.recorder_requests {run : Run} (h : .disconnect ∉ run.actions) :
    run.requests.foldl perform ({} : Recorder) =
      ⟨run.actions.filterMap writeOf?, if run.error?.isSome then 1 else 0⟩ := by
  rw [foldl_perform_recorder, run.sameOutput_requests.writes, Run.requests, List.count_append, List.count_eq_zero.mpr h]
  split <;> rfl

/-! ## One move -/

/-- An open session returns the challenges of an event that ends on no error, and does what the event asks for. -/
theorem IsOpen.dispatch_of_ok {s : Session} (h : s.IsOpen) {event : Event} (he : (s.advance event).error? = none)
    (transport : τ) :
    s.dispatch event transport =
      ((s.advance event).session, (s.advance event).actions.foldl perform transport,
        .ok ((s.advance event).actions.filterMap challengeOf?)) := by
  simp only [dispatch, h.isClosed_eq_false, h.handle_of_ok he, (h.advance he).held]
  cases (s.advance event).actions.filterMap challengeOf? <;> rfl

/-- An event that ends on an error closes an open session and, behind all output, the connection. The error is returned if there
is no challenge to be returned, and held otherwise. -/
theorem IsOpen.dispatch_of_error {s : Session} (h : s.IsOpen) {event : Event} {e : Error}
    (he : (s.advance event).error? = some e) (transport : τ) :
    ∃ held? result, s.dispatch event transport =
        ({ (s.advance event).session.close with held? := held? }, (s.advance event).requests.foldl perform transport, result) ∧
      ((held? = none ∧ (s.advance event).actions.filterMap challengeOf? = [] ∧ result = .error e) ∨
        (held? = some e ∧ (s.advance event).actions.filterMap challengeOf? ≠ [] ∧
          result = .ok ((s.advance event).actions.filterMap challengeOf?))) := by
  have hrequests : (s.advance event).requests = (s.advance event).actions ++ [.disconnect] := by
    rw [Run.requests, he]
    rfl
  rcases h.handle_of_error he with ⟨hnil, hhandle⟩ | ⟨_, hhandle⟩
  · refine ⟨none, .error e, ?_, Or.inl ⟨rfl, by rw [hnil]; rfl, rfl⟩⟩
    simp only [dispatch, h.isClosed_eq_false, hhandle, hrequests, hnil]
    rfl
  · have hchallenges : ((s.advance event).actions ++ [Action.disconnect]).filterMap challengeOf? =
        (s.advance event).actions.filterMap challengeOf? := (sameOutput_disconnect _).challenges
    simp only [dispatch, h.isClosed_eq_false, hhandle, hrequests, hchallenges]
    cases (s.advance event).actions.filterMap challengeOf? with
    | nil => exact ⟨none, .error e, rfl, Or.inl ⟨rfl, rfl, rfl⟩⟩
    | cons c cs => exact ⟨some e, .ok (c :: cs), rfl, Or.inr ⟨rfl, List.cons_ne_nil _ _, rfl⟩⟩

/-- On a closed session, a move takes the error that is held and returns it, and does nothing to the transport. -/
theorem move_of_closed {s : Session} (hp : s.phase = .closed) (hb : s.buffer = .empty) (transport : τ) (m : Move) :
    ∃ result, s.move transport m = ({ s with held? := none }, transport, result) ∧ handedOut result = [] ∧
      ∀ e, s.held? = some e → result = .error e := by
  have hclosed := isClosed_of_closed hp
  cases hh : s.held? with
  | some e =>
    refine ⟨.error e, ?_, rfl, fun e' he' => by rw [Option.some.inj he']⟩
    cases m with
    | takeError => simp only [move, takeError, hh]
    | dispatch event => simp only [move, dispatch, hclosed, handle_of_held hh]
  | none =>
    have hs : ({ s with held? := none } : Session) = s := by rw [← hh]
    cases m with
    | takeError => exact ⟨.ok [], by simp only [move, takeError, hh], rfl, nofun⟩
    | dispatch event =>
      obtain ⟨e, he⟩ := advance_of_closed hp event
      refine ⟨.error e, ?_, rfl, nofun⟩
      simp only [move, dispatch, hclosed, handle_of_free hh, he, Run.close, hs, close_of_closed hp hb]

/-! ## Whole drives -/

/-- After a closed session has been driven on, nothing has changed but that no error is held any more. -/
theorem drive_of_closed (moves : List Move) {s : Session} (hp : s.phase = .closed) (hb : s.buffer = .empty) (transport : τ) :
    ∃ held?, s.drive transport moves = ⟨{ s with held? := held? }, transport, []⟩ ∧
      (moves ≠ [] ∨ s.held? = none → held? = none) := by
  induction moves generalizing s with
  | nil => exact ⟨s.held?, rfl, fun h => h.resolve_left fun hne => hne rfl⟩
  | cons m moves ih =>
    obtain ⟨result, hmove, hout, _⟩ := move_of_closed hp hb transport m
    obtain ⟨held?, hdrive, hheld⟩ := ih (s := { s with held? := none }) hp hb
    refine ⟨held?, ?_, fun _ => hheld (Or.inr rfl)⟩
    simp only [drive, hmove, hdrive, hout]
    rfl

/-- An open session that is driven goes through the course of the events that it is handed, on any transport. While it is open
it holds no error. -/
theorem IsOpen.drive_eq_course (moves : List Move) {s : Session} (h : s.IsOpen) (transport : τ) :
    ∃ held?, (s.drive transport moves).session = { (s.course (Move.events moves)).session with held? := held? } ∧
      (s.drive transport moves).transport = (s.course (Move.events moves)).requests.foldl perform transport ∧
      (s.drive transport moves).challenges = (s.course (Move.events moves)).actions.filterMap challengeOf? ∧
      ((s.course (Move.events moves)).error? = none → held? = none) := by
  induction moves generalizing s transport with
  | nil =>
    refine ⟨none, ?_, rfl, rfl, fun _ => rfl⟩
    rw [← h.held]
    rfl
  | cons m moves ih =>
    cases m with
    | takeError =>
      have hmove : s.move transport .takeError = (s, transport, .ok []) := by
        simp only [move, takeError, h.held]
        rw [← h.held]
      have hdrive : s.drive transport (.takeError :: moves) = s.drive transport moves := by simp only [drive, hmove]; rfl
      rw [hdrive]
      exact ih h transport
    | dispatch event =>
      have hevents : Move.events (.dispatch event :: moves) = event :: Move.events moves := rfl
      rw [hevents]
      cases he : (s.advance event).error? with
      | none =>
        obtain ⟨held?, hs, ht, hc, hheld⟩ := ih (h.advance he) ((s.advance event).actions.foldl perform transport)
        rw [course_of_ok he]
        simp only [drive, move, h.dispatch_of_ok he]
        refine ⟨held?, hs, ?_, ?_, hheld⟩
        · rw [ht, ← List.foldl_append, Run.requests, Run.requests, ← List.append_assoc]
        · rw [hc, List.filterMap_append]
          rfl
      | some e =>
        obtain ⟨held, result, hdispatch, hresult⟩ := h.dispatch_of_error he transport
        obtain ⟨held?, hdrive, _⟩ := drive_of_closed moves (s := { (s.advance event).session.close with held? := held }) rfl rfl
          ((s.advance event).requests.foldl perform transport)
        rw [course_of_error he]
        simp only [drive, move, hdispatch, hdrive]
        refine ⟨held?, rfl, ?_, ?_, nofun⟩
        · simp only [Run.requests, he]
        · rw [List.append_nil]
          rcases hresult with ⟨_, hnil, rfl⟩ | ⟨_, _, rfl⟩
          · exact hnil.symm
          · rfl

/-- The error that closes a session is told once: by the step that closes it, or by the first move after it. -/
theorem IsOpen.told_once {s : Session} (h : s.IsOpen) {event : Event} {transport : τ}
    (hclosed : (s.dispatch event transport).1.phase = .closed) :
    let next := s.dispatch event transport
    ∃ e, ((s.handle event).2 = .error e ∨ (s.handle event).1.held? = some e) ∧
      ((next.2.2 = .error e ∧ next.1.held? = none) ∨
        (next.1.held? = some e ∧ (∃ c cs, next.2.2 = .ok (c :: cs)) ∧ ∀ m, (next.1.move next.2.1 m).2.2 = .error e)) ∧
      ∀ later, later ≠ [] ∨ next.1.held? = none → (next.1.drive next.2.1 later).session.held? = none := by
  intro next
  cases he : (s.advance event).error? with
  | none =>
    rw [h.dispatch_of_ok he] at hclosed
    exact absurd hclosed (h.advance he).phase
  | some e =>
    obtain ⟨held?, result, hnext, hresult⟩ := h.dispatch_of_error he transport
    have hnext : next = _ := hnext
    rw [hnext]
    refine ⟨e, ?_, ?_, fun later hlater => ?_⟩
    · rcases h.handle_of_error he with ⟨_, hhandle⟩ | ⟨_, hhandle⟩
      · exact Or.inl (by rw [hhandle])
      · exact Or.inr (by rw [hhandle])
    · rcases hresult with ⟨rfl, _, rfl⟩ | ⟨rfl, hne, rfl⟩
      · exact Or.inl ⟨rfl, rfl⟩
      · refine Or.inr ⟨rfl, ?_, fun m => ?_⟩
        · obtain ⟨c, cs, hc⟩ := List.exists_cons_of_ne_nil hne
          exact ⟨c, cs, by rw [hc]⟩
        · obtain ⟨told, hmove, _, htold⟩ := move_of_closed (s := { (s.advance event).session.close with held? := some e })
            rfl rfl ((s.advance event).requests.foldl perform transport) m
          simp only [hmove, htold e rfl]
    · obtain ⟨held', hdrive, hheld⟩ := drive_of_closed later (s := { (s.advance event).session.close with held? := held? })
        rfl rfl ((s.advance event).requests.foldl perform transport)
      rw [hdrive]
      exact hheld hlater

/-- How a driven session ends, and that handling the same events directly comes to the same. For a new session, whatever events
it is handed on a recorder and whenever the error that is held is taken:
1. The connection is ended once if the session is closed, and not at all before.
2. On any transport, what is asked for is the writes that the recorder keeps, in order, and behind them the end of the
   connection if the session is closed.
3. A session that handles the same events itself is left the same but for the error that is held, and neither holds one while it
   is open. It returns the writes that the recorder keeps and the challenges that the driver is given.
4. The step that closes the session comes to the error that the other session comes to. Either it returns the error and holds
   none; or it returns challenges, and the error is held and returned by the next move, whichever it is. No error is held after
   that. -/
theorem teardown_of_drive (id : String) (credentials : Credentials) (nonce : String) (moves : List Move) :
    let s := new id credentials nonce
    let d := s.drive ({} : Recorder) moves
    let twin := s.calls ((Move.events moves).map .handle)
    d.transport.disconnects = (if d.session.phase = .closed then 1 else 0) ∧
      (∀ (τ : Type) [Transport τ] (transport : τ), (s.drive transport moves).transport =
        (d.transport.writes.map Action.write ++ if d.session.phase = .closed then [Action.disconnect] else []).foldl
          perform transport) ∧
      (d.session = { twin.1 with held? := d.session.held? } ∧
        (d.session.phase ≠ .closed → d.session.held? = none ∧ twin.1.held? = none) ∧
        d.transport.writes = twin.2.flatten.filterMap writeOf? ∧ d.challenges = twin.2.flatten.filterMap challengeOf?) ∧
      ∀ event, d.session.phase ≠ .closed →
        let next := d.session.dispatch event d.transport
        let call := twin.1.handle event
        next.1.phase = .closed → ∃ e, (call.2 = .error e ∨ call.1.held? = some e) ∧
          ((next.2.2 = .error e ∧ next.1.held? = none) ∨
            (next.1.held? = some e ∧ (∃ c cs, next.2.2 = .ok (c :: cs)) ∧ ∀ m, (next.1.move next.2.1 m).2.2 = .error e)) ∧
          ∀ later, later ≠ [] ∨ next.1.held? = none → (next.1.drive next.2.1 later).session.held? = none := by
  intro s d twin
  have hnew : s.IsOpen := isOpen_new id credentials nonce
  obtain ⟨held, hd, ht, hc, hheld⟩ := hnew.drive_eq_course moves ({} : Recorder)
  obtain ⟨held', htwin, hout, hheld'⟩ := hnew.calls_eq_course (Move.events moves)
  have hnot := disconnect_not_mem_course s (Move.events moves)
  have hopen := (hnew.course (Move.events moves)).1
  have hphase : d.session.phase = .closed ↔ (s.course (Move.events moves)).error?.isSome := by
    rw [hd]
    exact hnew.closed_course_iff _
  have hrecorder : d.transport = _ := ht.trans (Run.recorder_requests hnot)
  have hstill : d.session.phase ≠ .closed → d.session = (s.course (Move.events moves)).session ∧
      twin.1 = (s.course (Move.events moves)).session ∧ (s.course (Move.events moves)).session.IsOpen := by
    intro hp
    have he : (s.course (Move.events moves)).error? = none := by simpa using mt hphase.mpr hp
    have hr := hopen he
    refine ⟨hd.trans ?_, htwin.trans ?_, hr⟩
    · rw [hheld he, ← hr.held]
    · rw [hheld' he, ← hr.held]
  refine ⟨?_, fun τ _ transport => ?_, ⟨?_, fun hp => ?_, ?_, hc.trans hout.challenges.symm⟩, fun event hp => ?_⟩
  · simp only [hrecorder, hphase]
  · obtain ⟨_, _, ht', _⟩ := hnew.drive_eq_course moves transport
    rw [ht', Run.foldl_requests hnot, hrecorder]
    simp only [hphase]
  · rw [show twin.1 = _ from htwin, hd]
  · obtain ⟨hs, ht', hr⟩ := hstill hp
    exact ⟨by rw [hs, hr.held], by rw [ht', hr.held]⟩
  · rw [hrecorder, hout.writes]
  · obtain ⟨hs, ht', hr⟩ := hstill hp
    rw [hs, ht']
    exact fun hnext => hr.told_once hnext

end StreamAuth.Session
