import StreamAuth.Proofs.Reading
import StreamAuth.Proofs.Steps

/-!
# Delivering a stream

A driver connects a session, hands it the pieces of a stream until a step returns an error, and takes the error that is held at
the end. What can be seen of that is an `Observation`. It is what reading the pieces comes to (`observation_deliver`), so what
holds of `Phase.readPieces` holds of what a driver sees.
-/

namespace StreamAuth

/-! ## Answers as they are seen -/

namespace Answer

/-- The bytes that an answer writes. -/
def write? (credentials : Credentials) (nonce : String) : Answer → Option Bytes
  | .announce m => some (Stanza.announce m credentials.username nonce).toBytes
  | .pass _ => none

/-- The challenge that an answer hands out. -/
def challenge? : Answer → Option Challenge
  | .announce _ => none
  | .pass c => some c

/-- The mechanism of a session after an answer. -/
def mechanismAfter (mechanism? : Option Mechanism) : Answer → Option Mechanism
  | .announce m => some m
  | .pass _ => mechanism?

/-- Actions of answers write on a transport, and do nothing else to it. -/
theorem foldl_perform (credentials : Credentials) (nonce : String) (answers : List Answer) (transport : Recorder) :
    (answers.map (action credentials nonce)).foldl Session.perform transport =
      { transport with writes := transport.writes ++ answers.filterMap (write? credentials nonce) } := by
  induction answers generalizing transport with
  | nil => rw [List.filterMap_nil, List.append_nil]; rfl
  | cons a as ih =>
    rw [List.map_cons, List.foldl_cons, ih]
    cases a with
    | announce m => simp [write?, action, Session.perform, Transport.write]
    | pass c => rfl

/-- The challenges that the actions of answers hand out. -/
theorem filterMap_challengeOf? (credentials : Credentials) (nonce : String) (answers : List Answer) :
    (answers.map (action credentials nonce)).filterMap Session.challengeOf? = answers.filterMap challenge? := by
  induction answers with
  | nil => rfl
  | cons a as ih =>
    rw [List.map_cons, List.filterMap_cons, List.filterMap_cons, ih]
    cases a <;> rfl

/-- Challenges that are handed out write nothing. -/
theorem filterMap_write?_pass (credentials : Credentials) (nonce : String) (challenges : List Challenge) :
    (challenges.map pass).filterMap (write? credentials nonce) = [] := by
  simp [List.filterMap_eq_nil_iff, write?]

theorem filterMap_challenge?_pass (challenges : List Challenge) : (challenges.map pass).filterMap challenge? = challenges := by
  rw [List.filterMap_map]
  exact List.filterMap_some

/-- Challenges that are handed out leave the mechanism. -/
theorem foldl_mechanismAfter_pass (challenges : List Challenge) (mechanism? : Option Mechanism) :
    (challenges.map pass).foldl mechanismAfter mechanism? = mechanism? := by
  induction challenges with
  | nil => rfl
  | cons c cs ih => exact ih

/-- Each answer is seen once, as something written or as a challenge. -/
theorem length_seen (credentials : Credentials) (nonce : String) (answers : List Answer) :
    (answers.filterMap (write? credentials nonce)).length + (answers.filterMap challenge?).length = answers.length := by
  induction answers with
  | nil => rfl
  | cons a as ih =>
    cases a <;> simp only [List.filterMap_cons, write?, challenge?, List.length_cons] <;> omega

end Answer

/-! ## Observations -/

/-- What can be seen of a session that is handed a stream. -/
structure Observation where
  /-- What was written. -/
  writes : List Bytes
  /-- The challenges that were handed out. -/
  challenges : List Challenge
  /-- The error that ended the session, returned or held. -/
  error? : Option Error
  /-- How often the connection was ended. -/
  disconnects : Nat
  /-- What is waited for. -/
  phase : Phase
  /-- What is buffered. -/
  buffered : Bytes
  deriving DecidableEq

namespace Observation

/-- What is seen when the stream has been opened. -/
def opened (credentials : Credentials) : Observation :=
  ⟨[(Stanza.streamHeader credentials.host).toBytes], [], none, 0, .awaitingFeatures, []⟩

/-- What is seen of some answers more. -/
def answer (credentials : Credentials) (nonce : String) (o : Observation) (answers : List Answer) : Observation :=
  { o with
    writes := o.writes ++ answers.filterMap (Answer.write? credentials nonce)
    challenges := o.challenges ++ answers.filterMap Answer.challenge? }

/-- What is seen when bytes that come to a reading have been delivered. The connection is ended on an error, and only then. -/
def extend (credentials : Credentials) (nonce : String) (o : Observation) (r : Reading) : Observation :=
  { o.answer credentials nonce r.answers with
    error? := r.error?
    disconnects := o.disconnects + r.error?.toList.length
    phase := r.phase
    buffered := r.unread }

variable (credentials : Credentials) (nonce : String)

theorem extend_following (o : Observation) (answers : List Answer) (r : Reading) :
    o.extend credentials nonce (r.following answers) = (o.answer credentials nonce answers).extend credentials nonce r := by
  simp [extend, answer, Reading.following]

/-- The number of answers can be seen. -/
theorem length_extend (o : Observation) (r : Reading) :
    (o.extend credentials nonce r).writes.length + (o.extend credentials nonce r).challenges.length =
      o.writes.length + o.challenges.length + r.answers.length := by
  have h := Answer.length_seen credentials nonce r.answers
  simp only [extend, answer, List.length_append]
  omega

end Observation

/-! ## The driver -/

/-- A session in the hands of its driver. -/
structure Delivery where
  /-- The session. -/
  session : Session
  /-- What has been asked of the transport. -/
  transport : Recorder := {}
  /-- The challenges that steps have returned. -/
  challenges : List Challenge := []
  /-- The error that a step has returned. -/
  error? : Option Error := none

namespace Delivery

/-- One step, unless one before it has returned an error. -/
def next (d : Delivery) (event : Event) : Delivery :=
  match d.error? with
  | some _ => d
  | none =>
    match d.session.dispatch event d.transport with
    | (s, transport, .error e) => { d with session := s, transport, error? := some e }
    | (s, transport, .ok challenges) => { d with session := s, transport, challenges := d.challenges ++ challenges }

/-- The end, at which the error that is held is taken. -/
def finish (d : Delivery) : Delivery :=
  { d with session := d.session.takeError.2, error? := d.error?.or d.session.takeError.1 }

/-- The steps that hand over the pieces of a stream, and the end. -/
def feed (d : Delivery) (pieces : List Bytes) : Delivery :=
  ((pieces.map Event.received).foldl next d).finish

/-- What can be seen. -/
def observation (d : Delivery) : Observation :=
  ⟨d.transport.writes, d.challenges, d.error?, d.transport.disconnects, d.session.phase, d.session.buffer.bytes⟩

end Delivery

/-- Hands a session its connection and the pieces of a stream, until a step returns an error, and takes the held error. -/
def Session.deliver (s : Session) (pieces : List Bytes) : Delivery :=
  (Delivery.next { session := s } .connected).feed pieces

/-! ## A drain reads -/

namespace Session

/-- A run of a session goes as a reading. -/
structure Run.Follows (s : Session) (run : Run) (r : Reading) : Prop where
  actions : run.actions = r.answers.map (Answer.action s.credentials s.nonce)
  error : run.error? = r.error?
  credentials : run.session.credentials = s.credentials
  nonce : run.session.nonce = s.nonce
  held : run.session.held? = s.held?
  waiting : run.session.Waiting
  mechanism : run.session.mechanism? = r.answers.foldl Answer.mechanismAfter s.mechanism?
  phase : r.error? = none → run.session.phase = r.phase
  buffer : r.error? = none → run.session.buffer.bytes = r.unread

/-- An answer leads to the phase in which challenges are awaited. -/
theorem phase_give {s : Session} {span : Span SpanKind} {a : Answer} (h : s.nextSpan? = some span)
    (ha : span.kind.answer span.bytes = .ok a) : ((s.take span).give a).phase = .awaitingChallenge := by
  obtain ⟨hk, _⟩ := Phase.frame?_of_firstSpan? (s.nextSpan?_eq ▸ h)
  rcases Phase.answer_of_watched hk ha with ⟨_, _, m, _, rfl⟩ | ⟨hp, _, c, rfl⟩
  · rfl
  · exact hp

/-- A drain goes as the reading of the buffer. -/
theorem Drains.follows {s : Session} {run : Run} (h : Drains s run) (hw : s.Waiting) :
    run.Follows s (s.phase.read s.buffer.bytes) := by
  induction h with
  | quiet hn =>
    rw [Phase.read_of_none hn]
    exact ⟨rfl, rfl, rfl, rfl, rfl, hw, rfl, fun _ => rfl, fun _ => rfl⟩
  | fatal hs ha =>
    rw [Phase.read_of_error hs ha]
    exact ⟨rfl, rfl, rfl, rfl, rfl, hw, rfl, nofun, nofun⟩
  | @answered s span a run hs ha _ ih =>
    have hp := phase_give hs ha
    have hb : ((s.take span).give a).buffer.bytes = span.rest := by cases a <;> rfl
    have hc : ((s.take span).give a).credentials = s.credentials := by cases a <;> rfl
    have hn : ((s.take span).give a).nonce = s.nonce := by cases a <;> rfl
    have hh : ((s.take span).give a).held? = s.held? := by cases a <;> rfl
    have hm : ((s.take span).give a).mechanism? = Answer.mechanismAfter s.mechanism? a := by cases a <;> rfl
    have hf := ih (Or.inr hp)
    rw [hp, hb] at hf
    rw [Phase.read_of_ok hs ha]
    refine ⟨?_, hf.error, hf.credentials.trans hc, hf.nonce.trans hn, hf.held.trans hh, hf.waiting, ?_, hf.phase, hf.buffer⟩
    · rw [hf.actions, hc, hn]
      rfl
    · rw [hf.mechanism, hm]
      rfl

/-! ## A delivery reads -/

/-- A session that waits for a stanza and holds no error, and so has been open all along. -/
structure Ready (s : Session) : Prop where
  waiting : s.Waiting
  held : s.held? = none

theorem Ready.isClosed_eq_false {s : Session} (h : s.Ready) : s.isClosed = false := by
  rcases h.waiting with hp | hp <;> rw [isClosed, hp] <;> rfl

/-- A step that ends on an error after some answers ends the connection. The error is returned if there is no challenge to be
returned, and held otherwise. -/
theorem dispatch_of_held {s t : Session} (hopen : s.isClosed = false) {event : Event} {answers : List Answer} {e : Error}
    (h : s.handle event = (t, .ok (answers.map (Answer.action s.credentials s.nonce) ++ [.disconnect])))
    (hh : t.held? = some e) (transport : Recorder) :
    s.dispatch event transport =
      match answers.filterMap Answer.challenge? with
      | [] => ({ t with held? := none },
          ⟨transport.writes ++ answers.filterMap (Answer.write? s.credentials s.nonce), transport.disconnects + 1⟩, .error e)
      | challenges => (t,
          ⟨transport.writes ++ answers.filterMap (Answer.write? s.credentials s.nonce), transport.disconnects + 1⟩,
          .ok challenges) := by
  have hlast : [Action.disconnect].filterMap challengeOf? = [] := rfl
  simp only [dispatch, hopen, h, hh, List.foldl_append, Answer.foldl_perform, List.filterMap_append,
    Answer.filterMap_challengeOf?, hlast, List.append_nil]
  cases answers.filterMap Answer.challenge? <;> rfl

/-- Bytes that come to a reading without an error are answered, and leave the session ready for more. -/
theorem handle_received_of_ok {s : Session} (h : s.Ready) {bytes : Bytes} {r : Reading}
    (hr : s.phase.read (s.buffer.bytes ++ bytes) = r) (he : r.error? = none) :
    ∃ t, s.handle (.received bytes) = (t, .ok (r.answers.map (Answer.action s.credentials s.nonce))) ∧
      t.Ready ∧ t.credentials = s.credentials ∧ t.nonce = s.nonce ∧
      t.mechanism? = r.answers.foldl Answer.mechanismAfter s.mechanism? ∧ t.phase = r.phase ∧ t.buffer.bytes = r.unread := by
  have hf := (drains_drain (s.receiving bytes)).follows h.waiting
  rw [show (s.receiving bytes).phase.read (s.receiving bytes).buffer.bytes = r from hr] at hf
  generalize hrun : (s.receiving bytes).drain = run at hf
  obtain ⟨t, actions, error?⟩ := run
  obtain rfl : actions = r.answers.map (Answer.action s.credentials s.nonce) := hf.actions
  obtain rfl : error? = none := hf.error.trans he
  have hheld : t.held? = none := hf.held.trans h.held
  refine ⟨t, ?_, ⟨hf.waiting, hheld⟩, hf.credentials, hf.nonce, hf.mechanism, hf.phase he, hf.buffer he⟩
  rw [handle_of_free h.held, advance_received h.waiting, hrun]
  rfl

/-- Bytes that come to a reading without an error are answered on the transport, and leave the session ready for more. -/
theorem dispatch_of_ok {s : Session} (h : s.Ready) {bytes : Bytes} {r : Reading}
    (hr : s.phase.read (s.buffer.bytes ++ bytes) = r) (he : r.error? = none) (transport : Recorder) :
    ∃ t, s.dispatch (.received bytes) transport =
        (t, { transport with writes := transport.writes ++ r.answers.filterMap (Answer.write? s.credentials s.nonce) },
          .ok (r.answers.filterMap Answer.challenge?)) ∧
      t.Ready ∧ t.credentials = s.credentials ∧ t.nonce = s.nonce ∧
      t.mechanism? = r.answers.foldl Answer.mechanismAfter s.mechanism? ∧ t.phase = r.phase ∧ t.buffer.bytes = r.unread := by
  obtain ⟨t, hhandle, hready, hrest⟩ := handle_received_of_ok h hr he
  have hopen := h.isClosed_eq_false
  refine ⟨t, ?_, hready, hrest⟩
  simp only [dispatch, hopen, hhandle, Answer.foldl_perform, Answer.filterMap_challengeOf?, hready.held]
  cases r.answers.filterMap Answer.challenge? <;> rfl

/-- Pieces that come to a reading without an error are answered in order, and leave the session ready for more. -/
theorem calls_received_of_ok (pieces : List Bytes) {s : Session} (h : s.Ready) {r : Reading}
    (hr : s.phase.readPieces s.buffer.bytes pieces = r) (he : r.error? = none) :
    ∃ t actions, s.calls (pieces.map fun piece => .handle (.received piece)) = (t, actions) ∧
      actions.flatten = r.answers.map (Answer.action s.credentials s.nonce) ∧ t.Ready ∧ t.phase = r.phase ∧
      t.buffer.bytes = r.unread := by
  induction pieces generalizing s r with
  | nil =>
    subst hr
    exact ⟨s, [], rfl, rfl, h, rfl, rfl⟩
  | cons piece pieces ih =>
    generalize hfirst : s.phase.read (s.buffer.bytes ++ piece) = first
    cases hp : first.error? with
    | some e =>
      rw [Phase.readPieces_cons_of_error (hfirst ▸ hp), hfirst] at hr
      rw [← hr, hp] at he
      cases he
    | none =>
      obtain ⟨t, hhandle, hready, hcredentials, hnonce, _, hphase, hbuffer⟩ := handle_received_of_ok h hfirst hp
      rw [Phase.readPieces_cons_of_ok (hfirst ▸ hp), hfirst, ← hphase, ← hbuffer] at hr
      subst hr
      obtain ⟨u, actions, hcalls, hactions, hlast⟩ := ih hready rfl he
      refine ⟨u, first.answers.map (Answer.action s.credentials s.nonce) :: actions, ?_, ?_, hlast⟩
      · rw [List.map_cons, calls, call, hhandle, hcalls]
        rfl
      · rw [List.flatten_cons, hactions, hcredentials, hnonce, Reading.answers_following, List.map_append]

/-- Bytes that come to a reading with an error are answered as far as it goes, and then the connection is ended and the session
is closed. The error is returned if there is no challenge to be returned, and held otherwise. -/
theorem dispatch_of_error {s : Session} (h : s.Ready) {bytes : Bytes} {r : Reading} {e : Error}
    (hr : s.phase.read (s.buffer.bytes ++ bytes) = r) (he : r.error? = some e) (transport : Recorder) :
    ∃ t result, s.dispatch (.received bytes) transport =
        (t, ⟨transport.writes ++ r.answers.filterMap (Answer.write? s.credentials s.nonce), transport.disconnects + 1⟩,
          result) ∧
      t.phase = .closed ∧ t.buffer = .empty ∧ t.mechanism? = r.answers.foldl Answer.mechanismAfter s.mechanism? ∧
      ((t.held? = none ∧ r.answers.filterMap Answer.challenge? = [] ∧ result = .error e) ∨
        (t.held? = some e ∧ r.answers.filterMap Answer.challenge? ≠ [] ∧
          result = .ok (r.answers.filterMap Answer.challenge?))) := by
  have hf := (drains_drain (s.receiving bytes)).follows h.waiting
  rw [show (s.receiving bytes).phase.read (s.receiving bytes).buffer.bytes = r from hr] at hf
  generalize hrun : (s.receiving bytes).drain = run at hf
  obtain ⟨t, actions, error?⟩ := run
  have hactions : actions = r.answers.map (Answer.action s.credentials s.nonce) := hf.actions
  obtain rfl : error? = some e := hf.error.trans he
  have hheld : t.held? = none := hf.held.trans h.held
  have hopen := h.isClosed_eq_false
  have hadvance : s.handle (.received bytes) = (Run.mk t actions (some e)).close := by
    rw [handle_of_free h.held, advance_received h.waiting, hrun]
  cases ha : r.answers with
  | nil =>
    rw [ha] at hactions
    subst hactions
    refine ⟨t.close, .error e, ?_, rfl, rfl, ?_, Or.inl ⟨hheld, rfl, rfl⟩⟩
    · simp only [dispatch, hopen, hadvance, Run.close, List.map_nil, List.filterMap_nil, List.append_nil]
      rfl
    · rw [← ha]
      exact hf.mechanism
  | cons a as =>
    have hhandle : s.handle (.received bytes) =
        ({ t.close with held? := some e },
          .ok ((a :: as).map (Answer.action s.credentials s.nonce) ++ [.disconnect])) := by
      rw [hadvance, hactions, ha]
      rfl
    have hm : t.mechanism? = (a :: as).foldl Answer.mechanismAfter s.mechanism? := ha ▸ hf.mechanism
    rw [dispatch_of_held hopen hhandle rfl]
    cases (a :: as).filterMap Answer.challenge? with
    | nil => exact ⟨{ t.close with held? := none }, .error e, rfl, rfl, rfl, hm, Or.inl ⟨rfl, rfl, rfl⟩⟩
    | cons c cs =>
      exact ⟨{ t.close with held? := some e }, .ok (c :: cs), rfl, rfl, rfl, hm, Or.inr ⟨rfl, List.cons_ne_nil _ _, rfl⟩⟩

end Session

namespace Delivery

open Session (Ready)

/-! ## What is seen -/

theorem next_of_ok {d : Delivery} (hd : d.error? = none) {event : Event} {t : Session} {transport : Recorder}
    {challenges : List Challenge} (h : d.session.dispatch event d.transport = (t, transport, .ok challenges)) :
    d.next event = ⟨t, transport, d.challenges ++ challenges, none⟩ := by
  simp only [next, hd, h]

theorem next_of_error {d : Delivery} (hd : d.error? = none) {event : Event} {t : Session} {transport : Recorder} {e : Error}
    (h : d.session.dispatch event d.transport = (t, transport, .error e)) :
    d.next event = ⟨t, transport, d.challenges, some e⟩ := by
  simp only [next, hd, h]

theorem foldl_next_of_error {d : Delivery} {e : Error} (he : d.error? = some e) (events : List Event) :
    events.foldl next d = d := by
  induction events with
  | nil => rfl
  | cons event events ih =>
    rw [List.foldl_cons, show d.next event = d by unfold next; rw [he]]
    exact ih

/-- Once the session is closed and holds an error, all that is seen of further pieces is the error. -/
theorem feed_of_held {d : Delivery} {e : Error} (hd : d.error? = none) (hp : d.session.phase = .closed)
    (hh : d.session.held? = some e) (pieces : List Bytes) :
    (d.feed pieces).observation = { d.observation with error? := some e } ∧
      (d.feed pieces).session.mechanism? = d.session.mechanism? := by
  cases pieces with
  | nil =>
    refine ⟨?_, rfl⟩
    simp only [feed, finish, observation, Session.takeError, List.map_nil, List.foldl_nil, hd, hh, Option.none_or]
  | cons piece pieces =>
    have hc : d.session.isClosed = true := by rw [Session.isClosed, hp]; rfl
    have hdispatch : d.session.dispatch (.received piece) d.transport =
        ({ d.session with held? := none }, d.transport, .error e) := by
      simp only [Session.dispatch, hc, Session.handle_of_held hh]
    rw [feed, List.map_cons, List.foldl_cons, next_of_error hd hdispatch, foldl_next_of_error rfl]
    exact ⟨rfl, rfl⟩

/-- What is seen of a piece that comes to a reading with an error, and of all pieces behind it, is that reading. -/
theorem observation_feed_of_error {d : Delivery} (hd : d.error? = none) (h : d.session.Ready) {piece : Bytes} {r : Reading}
    {e : Error} (hr : d.session.phase.read (d.session.buffer.bytes ++ piece) = r) (he : r.error? = some e)
    (pieces : List Bytes) :
    (d.feed (piece :: pieces)).observation = d.observation.extend d.session.credentials d.session.nonce r ∧
      (d.feed (piece :: pieces)).session.mechanism? = r.answers.foldl Answer.mechanismAfter d.session.mechanism? := by
  obtain ⟨t, result, hdispatch, hp, hb, hm, hresult⟩ := Session.dispatch_of_error h hr he d.transport
  obtain ⟨hphase, hunread⟩ := Phase.closed_of_read_error d.session.phase (d.session.buffer.bytes ++ piece)
    (by rw [hr, he]; nofun)
  rw [hr] at hphase hunread
  have hseen : d.observation.extend d.session.credentials d.session.nonce r =
      ⟨d.transport.writes ++ r.answers.filterMap (Answer.write? d.session.credentials d.session.nonce),
        d.challenges ++ r.answers.filterMap Answer.challenge?, some e, d.transport.disconnects + 1, t.phase,
        t.buffer.bytes⟩ := by
    rw [hp, hb]
    simp only [Observation.extend, Observation.answer, he, hphase, hunread]
    rfl
  rw [hseen, ← hm]
  rcases hresult with ⟨hh, hnil, rfl⟩ | ⟨hh, _, rfl⟩
  · rw [feed, List.map_cons, List.foldl_cons, next_of_error hd hdispatch, foldl_next_of_error rfl, hnil, List.append_nil]
    exact ⟨rfl, rfl⟩
  · have hfeed : d.feed (piece :: pieces) = (d.next (.received piece)).feed pieces := rfl
    rw [hfeed, next_of_ok hd hdispatch]
    exact feed_of_held rfl hp hh pieces

/-- What is seen of pieces that are handed to a session that is ready for them is what reading them comes to. -/
theorem observation_feed (pieces : List Bytes) {d : Delivery} (hd : d.error? = none) (h : d.session.Ready) :
    (d.feed pieces).observation =
        d.observation.extend d.session.credentials d.session.nonce
          (d.session.phase.readPieces d.session.buffer.bytes pieces) ∧
      (d.feed pieces).session.mechanism? =
        (d.session.phase.readPieces d.session.buffer.bytes pieces).answers.foldl Answer.mechanismAfter
          d.session.mechanism? := by
  induction pieces generalizing d with
  | nil =>
    refine ⟨?_, rfl⟩
    simp [feed, finish, observation, Session.takeError, hd, h.held, Phase.readPieces, Observation.extend, Observation.answer]
  | cons piece pieces ih =>
    generalize hr : d.session.phase.read (d.session.buffer.bytes ++ piece) = r
    rw [Phase.readPieces, hr, Reading.andThen]
    cases he : r.error? with
    | some e => exact observation_feed_of_error hd h hr he pieces
    | none =>
      obtain ⟨t, hdispatch, ht, hc, hn, hm, hp, hb⟩ := Session.dispatch_of_ok h hr he d.transport
      have hfeed : d.feed (piece :: pieces) = (d.next (.received piece)).feed pieces := rfl
      have hnext := next_of_ok hd hdispatch
      obtain ⟨hobs, hmech⟩ := ih (d := d.next (.received piece)) (by rw [hnext]) (by rw [hnext]; exact ht)
      rw [hfeed, hobs, hmech, hnext]
      refine ⟨?_, ?_⟩
      · simp only [hc, hn, hp, hb, Observation.extend_following]
        rfl
      · simp only [hm, hp, hb, Reading.answers_following, List.foldl_append]

end Delivery

/-- What is seen of a stream that is delivered to a new session is what reading its pieces comes to. -/
theorem observation_deliver (id : String) (credentials : Credentials) (nonce : String) (pieces : List Bytes) :
    let d := (Session.new id credentials nonce).deliver pieces
    let r := Phase.awaitingFeatures.readPieces [] pieces
    d.observation = (Observation.opened credentials).extend credentials nonce r ∧
      d.session.mechanism? = r.answers.foldl Answer.mechanismAfter none :=
  Delivery.observation_feed pieces rfl ⟨Or.inl rfl, rfl⟩

end StreamAuth
