import Mathlib.Data.List.Basic
import StreamAuth.Proofs.Delivery
import StreamAuth.Proofs.Exchange

/-!
# Turn by turn

An exchange is a row of turns. In each of them the session handles one event, the client does what the session has asked for, and
then the exchange is over or goes on. What a turn comes to is said once for each way in which it can go, by what its event brings
about and by whether the client's requests fail (`Turn.outcome_of_told` and the equations behind it); what holds of an exchange is
proved from these. `Turn.LeadsTo` is the way from one turn to another.
-/

namespace StreamAuth

/-! ## What a step asks of a client -/

namespace Session

/-- The challenges that a run hands out. -/
def Run.challenges (run : Run) : List Challenge :=
  run.actions.filterMap challengeOf?

/-- What a run leaves in an outbox: what it writes, and the end of the connection if it ended on an error. -/
def Run.outbox (run : Run) : Outbox :=
  ⟨run.actions.filterMap writeOf?, run.error?.isSome⟩

/-- Writes are kept in an outbox in order. -/
theorem foldl_write_outbox (writes : List Bytes) (outbox : Outbox) :
    (writes.map Action.write).foldl perform outbox = { outbox with pending := outbox.pending ++ writes } := by
  induction writes generalizing outbox with
  | nil => rw [List.append_nil]; rfl
  | cons bytes writes ih =>
    rw [List.map_cons, List.foldl_cons, ih]
    simp [perform, Transport.write]

theorem Run.foldl_requests_outbox {run : Run} (h : .disconnect ∉ run.actions) :
    run.requests.foldl perform ({} : Outbox) = run.outbox := by
  rw [Run.foldl_requests h, List.foldl_append, foldl_write_outbox, List.nil_append, Run.outbox]
  cases run.error? <;> rfl

/-- A session that can go on: it is open, and what it has asked for so far came in order. -/
structure Underway (s : Session) : Prop where
  isOpen : s.IsOpen
  inOrder : ∃ credentials nonce o, s.Shows credentials nonce o

theorem underway_new (id : String) (credentials : Credentials) (nonce : String) : (new id credentials nonce).Underway :=
  ⟨isOpen_new id credentials nonce, credentials, nonce, .empty, shows_new id⟩

namespace Underway

variable {s : Session} {event : Event}

/-- What an event on no error leaves in the outbox, and what is returned of it. -/
theorem dispatch_of_ok (h : s.Underway) (he : (s.advance event).error? = none) :
    s.dispatch event ({} : Outbox) =
      ((s.advance event).session, (s.advance event).outbox, .ok (s.advance event).challenges) := by
  have houtbox := Run.foldl_requests_outbox (disconnect_not_mem_advance s event)
  rw [Run.requests, he, Option.isSome_none, if_neg Bool.false_ne_true, List.append_nil] at houtbox
  rw [h.isOpen.dispatch_of_ok he, houtbox, Run.challenges]

/-- What an event on an error leaves in the outbox, and what is returned of it. -/
theorem dispatch_of_error (h : s.Underway) {e : Error} (he : (s.advance event).error? = some e) :
    ∃ t result, s.dispatch event ({} : Outbox) = (t, (s.advance event).outbox, result) ∧
      (((s.advance event).challenges = [] ∧ result = .error e) ∨
        ∃ c cs, (s.advance event).challenges = c :: cs ∧ result = .ok (c :: cs) ∧ t.held? = some e) := by
  obtain ⟨held?, result, hdispatch, hresult⟩ := h.isOpen.dispatch_of_error he ({} : Outbox)
  rw [Run.foldl_requests_outbox (disconnect_not_mem_advance s event)] at hdispatch
  refine ⟨_, result, hdispatch, ?_⟩
  rcases hresult with ⟨_, hnil, rfl⟩ | ⟨rfl, hne, rfl⟩
  · exact Or.inl ⟨hnil, rfl⟩
  · obtain ⟨c, cs, hc⟩ := List.exists_cons_of_ne_nil hne
    exact Or.inr ⟨c, cs, hc, by rw [hc], rfl⟩

/-- Whatever an event brings about, what it asks for is left in the outbox. -/
theorem outbox_dispatch (h : s.Underway) (event : Event) :
    (s.dispatch event ({} : Outbox)).2.1 = (s.advance event).outbox := by
  cases he : (s.advance event).error? with
  | none => rw [h.dispatch_of_ok he]
  | some e =>
    obtain ⟨t, result, hdispatch, _⟩ := h.dispatch_of_error he
    rw [hdispatch]

/-- A session that handles an event without an error can go on. A challenge comes only with a mechanism. -/
theorem advance (h : s.Underway) (he : (s.advance event).error? = none) :
    (s.advance event).session.Underway ∧
      ((s.advance event).challenges ≠ [] → ∃ m, (s.advance event).session.mechanism? = some m) := by
  obtain ⟨credentials, nonce, o, hshows⟩ := h.inOrder
  have hcall : s.call (.handle event) = ((s.advance event).session, .ok (s.advance event).actions) := h.isOpen.handle_of_ok he
  obtain ⟨o', hshows', _⟩ := shows_call hshows (.handle event)
  obtain ⟨_, hhistory, _⟩ := history_call hshows (.handle event)
  rw [hcall] at hshows' hhistory
  exact ⟨⟨h.isOpen.advance he, credentials, nonce, o', hshows'⟩, fun hc => Option.ne_none_iff_exists'.mp (hhistory.mechanism hc)⟩

end Underway

/-! ## Bytes that arrive -/

/-- Bytes that a session waits for bring about what reading them behind the buffered ones comes to. -/
theorem Waiting.follows {s : Session} (h : s.Waiting) (bytes : Bytes) :
    (s.advance (.received bytes)).Follows s (s.phase.read (s.buffer.bytes ++ bytes)) := by
  have hf := (drains_drain (s.receiving bytes)).follows h
  rw [advance_received h]
  exact ⟨hf.actions, hf.error, hf.credentials, hf.nonce, hf.held, hf.waiting, hf.mechanism, hf.phase, hf.buffer⟩

/-- What arrives first is read from the front. -/
theorem follows_opened (id : String) (credentials : Credentials) (nonce : String) (bytes : Bytes) :
    ((new id credentials nonce).openStream.1.advance (.received bytes)).Follows (new id credentials nonce).openStream.1
      (Phase.awaitingFeatures.read bytes) :=
  Waiting.follows (Or.inl rfl) bytes

namespace Run.Follows

variable {s : Session} {run : Run} {r : Reading}

theorem challenges (h : run.Follows s r) : run.challenges = r.answers.filterMap Answer.challenge? := by
  rw [Run.challenges, h.actions, Answer.filterMap_challengeOf?]

theorem outbox (h : run.Follows s r) :
    run.outbox = ⟨r.answers.filterMap (Answer.write? s.credentials s.nonce), r.error?.isSome⟩ := by
  have hwrites : ∀ a : Answer, writeOf? (a.action s.credentials s.nonce) = a.write? s.credentials s.nonce := by
    intro a
    cases a <;> rfl
  rw [Run.outbox, h.actions, h.error, List.filterMap_map]
  exact congrArg (Outbox.mk · _) (List.filterMap_congr fun a _ => hwrites a)

end Run.Follows

end Session

/-! ## Turns -/

/-- A turn of an exchange: where session and connection stand, the event at hand, and what there is to read after it. -/
structure Turn where
  /-- The session. -/
  session : Session
  /-- What has been done to the connection. -/
  traffic : Traffic
  /-- The event at hand. -/
  event : Event
  /-- The events to be read after it. -/
  later : List Event

/-- How an exchange goes from a turn on. -/
def Client.outcome (client : Client) (peer : Peer) (turn : Turn) : Outcome :=
  client.converse peer turn.session turn.traffic turn.event turn.later

/-- How an exchange goes on that has come to neither a challenge nor an error: to the next event, or, without one, into silence. -/
def Client.proceed (client : Client) (peer : Peer) (s : Session) (traffic : Traffic) : List Event → Outcome
  | event :: later => client.outcome peer ⟨s, traffic, event, later⟩
  | [] => ⟨.error (.timeout (.data client.readTimeout s.phase)), some (traffic.shutdown peer).1⟩

namespace Turn

/-- What the event of a turn brings about in the session. -/
def run (turn : Turn) : Session.Run :=
  turn.session.advance turn.event

/-- What a turn does to the connection, and whether all of it succeeds. -/
def flushed (turn : Turn) (peer : Peer) : Traffic × Except SystemError Unit :=
  turn.traffic.flush peer (turn.session.dispatch turn.event ({} : Outbox)).2.1

variable {client : Client} {peer : Peer} {turn : Turn}

theorem flushed_eq (h : turn.session.Underway) : turn.flushed peer = turn.traffic.flush peer turn.run.outbox := by
  rw [flushed, h.outbox_dispatch]
  rfl

/-- A turn fails at a write, and does nothing behind it; or the peer receives all that is to be written, and the connection is shut
down if the event has ended on an error. -/
theorem flushed_cases (h : turn.session.Underway) (peer : Peer) :
    (∃ sent bytes cause, peer.writeFailure? ≠ none ∧
        turn.flushed peer = ((turn.traffic.sending sent).after (.refused bytes), .error cause)) ∨
      (turn.run.error? = none ∧ turn.flushed peer = (turn.traffic.sending turn.run.outbox.pending, .ok ())) ∨
      ((∃ e, turn.run.error? = some e) ∧ turn.flushed peer = (turn.traffic.sending turn.run.outbox.pending).shutdown peer) := by
  rw [flushed_eq h]
  rcases Traffic.flush_cases turn.traffic peer turn.run.outbox with ⟨sent, bytes, _, cause, hfailure, _, hflush⟩ | hflush
  · exact Or.inl ⟨sent, bytes, cause, by rw [hfailure]; nofun, hflush⟩
  · rw [hflush]
    cases he : turn.run.error? with
    | none => exact Or.inr (Or.inl ⟨rfl, by simp [Session.Run.outbox, he]⟩)
    | some e => exact Or.inr (Or.inr ⟨⟨e, rfl⟩, by simp [Session.Run.outbox, he]⟩)

/-- If writes do not fail, a turn without an error of the session does all that it is to do. -/
theorem flushed_of_ok (h : turn.session.Underway) (hw : peer.writeFailure? = none) (he : turn.run.error? = none) :
    turn.flushed peer = (turn.traffic.sending turn.run.outbox.pending, .ok ()) := by
  rcases flushed_cases h peer with ⟨_, _, _, hfailure, _⟩ | ⟨_, hf⟩ | ⟨⟨e, hc⟩, _⟩
  · exact absurd hw hfailure
  · exact hf
  · cases he.symm.trans hc

/-- If shutting down fails, a turn that ends on an error of the session does. -/
theorem flushed_of_shutdownError (h : turn.session.Underway) {e : Error} (he : turn.run.error? = some e) {cause : SystemError}
    (hs : peer.shutdownError? = some cause) : ∃ cause, (turn.flushed peer).2 = .error cause := by
  rcases flushed_cases h peer with ⟨_, _, cause, _, hf⟩ | ⟨hnone, _⟩ | ⟨_, hf⟩
  · exact ⟨cause, by rw [hf]⟩
  · cases hnone.symm.trans he
  · exact ⟨cause, by rw [hf, Traffic.shutdown, hs]⟩

/-! ## What a turn comes to -/

/-- An error of the session is the result if there is no challenge to be returned before it, or if all requests succeed. -/
theorem outcome_of_told (h : turn.session.Underway) {e : Error} (he : turn.run.error? = some e)
    (htold : turn.run.challenges = [] ∨ (turn.flushed peer).2 = .ok ()) :
    client.outcome peer turn = ⟨.error e, some (turn.flushed peer).1⟩ := by
  obtain ⟨t, result, hdispatch, hresult⟩ := h.dispatch_of_error he
  rw [flushed_eq h] at htold ⊢
  rw [Client.outcome, Client.converse, hdispatch]
  generalize hf : turn.traffic.flush peer turn.run.outbox = flushed at htold ⊢
  rw [Turn.run] at hf
  simp only [hf]
  rcases hresult with ⟨hnil, rfl⟩ | ⟨c, cs, hc, rfl, hheld⟩
  · rfl
  · rcases htold with hnil | hok
    · cases hc.symm.trans hnil
    · simp only [hok, Session.conclude, hheld]

/-- An error of the session is lost if a request fails in a turn that has a challenge to return before the error. -/
theorem outcome_of_masked (h : turn.session.Underway) {e : Error} (he : turn.run.error? = some e)
    (hc : turn.run.challenges ≠ []) {cause : SystemError} (hf : (turn.flushed peer).2 = .error cause) :
    client.outcome peer turn = ⟨.error (.system cause), some (turn.flushed peer).1⟩ := by
  obtain ⟨t, result, hdispatch, hresult⟩ := h.dispatch_of_error he
  rw [flushed_eq h] at hf ⊢
  rw [Turn.run] at hf ⊢
  rw [Client.outcome, Client.converse, hdispatch]
  rcases hresult with ⟨hnil, _⟩ | ⟨c, cs, _, rfl, _⟩
  · exact absurd hnil hc
  · simp only [hf]

/-- Where the session has no error, a request that fails is the result. -/
theorem outcome_of_unflushed (h : turn.session.Underway) (he : turn.run.error? = none) {cause : SystemError}
    (hf : (turn.flushed peer).2 = .error cause) :
    client.outcome peer turn = ⟨.error (.system cause), some (turn.flushed peer).1⟩ := by
  rw [flushed_eq h] at hf ⊢
  rw [Turn.run] at hf ⊢
  rw [Client.outcome, Client.converse, h.dispatch_of_ok he]
  simp only [hf]

/-- A turn in which the session has an error or a request fails ends the exchange on an error. -/
theorem outcome_of_failure (client : Client) (peer : Peer) (h : turn.session.Underway)
    (hfailure : (∃ e, turn.run.error? = some e) ∨ ∃ cause, (turn.flushed peer).2 = .error cause) :
    ∃ e, client.outcome peer turn = ⟨.error e, some (turn.flushed peer).1⟩ := by
  cases he : turn.run.error? with
  | none =>
    rcases hfailure with ⟨e, hc⟩ | ⟨cause, hf⟩
    · cases he.symm.trans hc
    · exact ⟨_, outcome_of_unflushed h he hf⟩
  | some e =>
    by_cases hc : turn.run.challenges = []
    · exact ⟨e, outcome_of_told h he (Or.inl hc)⟩
    · cases hf : (turn.flushed peer).2 with
      | ok => exact ⟨e, outcome_of_told h he (Or.inr hf)⟩
      | error cause => exact ⟨_, outcome_of_masked h he hc hf⟩

/-- The first challenge is the result if nothing fails, with the mechanism that the session then has. -/
theorem outcome_of_challenge (client : Client) (h : turn.session.Underway) (he : turn.run.error? = none) {c : Challenge}
    {cs : List Challenge} (hc : turn.run.challenges = c :: cs) (hf : (turn.flushed peer).2 = .ok ()) :
    ∃ m, turn.run.session.mechanism? = some m ∧
      client.outcome peer turn = ⟨.ok ⟨m, c, turn.run.session.stats⟩, some (turn.flushed peer).1⟩ := by
  obtain ⟨hnext, hmechanism⟩ := h.advance he
  obtain ⟨m, hm⟩ := hmechanism (by rw [show (turn.session.advance turn.event).challenges = c :: cs from hc]; nofun)
  refine ⟨m, hm, ?_⟩
  rw [flushed_eq h] at hf ⊢
  rw [Turn.run] at hc hf ⊢
  rw [Client.outcome, Client.converse, h.dispatch_of_ok he]
  simp only [hf, hc, Session.conclude, hnext.isOpen.held, hm]

/-- The exchange goes on after a turn in which nothing fails and no challenge comes. -/
theorem outcome_of_quiet (h : turn.session.Underway) (he : turn.run.error? = none) (hc : turn.run.challenges = [])
    (hf : (turn.flushed peer).2 = .ok ()) :
    client.outcome peer turn = client.proceed peer turn.run.session (turn.flushed peer).1 turn.later := by
  rw [flushed_eq h] at hf ⊢
  rw [Turn.run] at hc hf ⊢
  rw [Client.outcome, Client.converse, h.dispatch_of_ok he]
  simp only [hf, hc]
  cases turn.later <;> rfl

/-! ## From turn to turn -/

/-- The next turn, if there is one: the session has returned neither a challenge nor an error, no request has failed, and
something is read. -/
def next? (peer : Peer) (turn : Turn) : Option Turn :=
  match turn.session.dispatch turn.event ({} : Outbox), turn.flushed peer, turn.later with
  | (s, _, .ok []), (traffic, .ok ()), event :: later => some ⟨s, traffic, event, later⟩
  | _, _, _ => none

/-- One turn leads to another over the events that are handled from the one up to the other. -/
inductive LeadsTo (peer : Peer) : Turn → List Event → Turn → Prop where
  | here {turn : Turn} : LeadsTo peer turn [] turn
  | on {turn next last : Turn} {handled : List Event} :
      turn.next? peer = some next → LeadsTo peer next handled last → LeadsTo peer turn (turn.event :: handled) last

/-- What is said of a turn that has a next one. -/
theorem next?_eq_some {next : Turn} (h : turn.next? peer = some next) :
    turn.session.dispatch turn.event ({} : Outbox) =
        (next.session, (turn.session.dispatch turn.event ({} : Outbox)).2.1, .ok []) ∧
      turn.flushed peer = (next.traffic, .ok ()) ∧ turn.later = next.event :: next.later := by
  unfold next? at h
  split at h
  · rename_i hd hf hl
    cases h
    exact ⟨by rw [hd], hf, hl⟩
  · cases h

theorem next?_of_quiet (h : turn.session.Underway) (he : turn.run.error? = none) (hc : turn.run.challenges = [])
    (hf : (turn.flushed peer).2 = .ok ()) {event : Event} {later : List Event} (hl : turn.later = event :: later) :
    turn.next? peer = some ⟨turn.run.session, (turn.flushed peer).1, event, later⟩ := by
  rw [Turn.run] at hc
  rw [next?, h.dispatch_of_ok he, hc, hl, show turn.flushed peer = ((turn.flushed peer).1, .ok ()) from Prod.ext rfl hf]
  rfl

/-- The exchange goes from a turn on as it goes from the next one on. -/
theorem outcome_of_next {next : Turn} (h : turn.next? peer = some next) :
    client.outcome peer turn = client.outcome peer next := by
  obtain ⟨hd, hf, hl⟩ := next?_eq_some h
  rw [flushed] at hf
  rw [Client.outcome, Client.converse, hd, hl]
  simp only [hf]
  rfl

theorem underway_next {next : Turn} (h : turn.next? peer = some next) (hu : turn.session.Underway) : next.session.Underway := by
  obtain ⟨hd, _, _⟩ := next?_eq_some h
  cases he : (turn.session.advance turn.event).error? with
  | none =>
    rw [hu.dispatch_of_ok he] at hd
    rw [← (Prod.mk.inj hd).1]
    exact (hu.advance he).1
  | some e =>
    obtain ⟨t, result, hdispatch, hresult⟩ := hu.dispatch_of_error he
    rw [hdispatch] at hd
    obtain ⟨_, _, rfl⟩ := hd
    rcases hresult with ⟨_, hc⟩ | ⟨_, _, _, hc, _⟩ <;> cases hc

/-- At a turn without a next one, the exchange is over. -/
theorem converses_of_last (h : turn.next? peer = none) :
    client.Converses peer turn.session turn.traffic turn.event [] (client.outcome peer turn) := by
  obtain ⟨read, hread, hconverses⟩ : ∃ read, read <+: turn.later ∧
      client.Converses peer turn.session turn.traffic turn.event read (client.outcome peer turn) :=
    Client.converses_converse turn.later turn.session turn.traffic turn.event
  generalize client.outcome peer turn = outcome at hconverses ⊢
  cases hconverses with
  | failed hd hf => exact .failed hd hf
  | unanswered hd hf => exact .unanswered hd hf
  | challenged hd hf => exact .challenged hd hf
  | silent hd hf => exact .silent hd hf
  | answered hd hf =>
    obtain ⟨later, hl⟩ := hread
    rw [next?, flushed, hd, hf, ← hl] at h
    cases h

namespace LeadsTo

variable {handled : List Event} {last : Turn}

/-- The exchange goes as it goes from a turn on that it comes to. -/
theorem outcome (h : LeadsTo peer turn handled last) : client.outcome peer turn = client.outcome peer last := by
  induction h with
  | here => rfl
  | on hnext _ ih => exact (outcome_of_next hnext).trans ih

theorem underway (h : LeadsTo peer turn handled last) (hu : turn.session.Underway) : last.session.Underway := by
  induction h with
  | here => exact hu
  | on hnext _ ih => exact ih (underway_next hnext hu)

/-- Events are handled in order, and each of them once. -/
theorem events (h : LeadsTo peer turn handled last) : turn.event :: turn.later = handled ++ last.event :: last.later := by
  induction h with
  | here => rfl
  | on hnext _ ih =>
    obtain ⟨_, _, hl⟩ := next?_eq_some hnext
    rw [hl, ih]
    rfl

end LeadsTo

/-- Every exchange comes to a last turn. -/
theorem exists_last (peer : Peer) (later : List Event) (s : Session) (traffic : Traffic) (event : Event) :
    ∃ handled last, LeadsTo peer ⟨s, traffic, event, later⟩ handled last ∧ last.next? peer = none := by
  induction later generalizing s traffic event with
  | nil =>
    refine ⟨[], _, .here, Option.eq_none_iff_forall_ne_some.mpr fun next h => ?_⟩
    obtain ⟨_, _, hl⟩ := next?_eq_some h
    cases hl
  | cons arrival later ih =>
    cases hn : (Turn.mk s traffic event (arrival :: later)).next? peer with
    | none => exact ⟨[], _, .here, hn⟩
    | some next =>
      obtain ⟨_, _, hl⟩ := next?_eq_some hn
      cases hl
      obtain ⟨handled, last, hlast, hnone⟩ := ih next.session next.traffic next.event
      exact ⟨event :: handled, last, .on hn hlast, hnone⟩

end Turn

/-! ## A negotiation in turns -/

/-- All that was done to a connection, if there was one. -/
def Outcome.requests (outcome : Outcome) : List Request :=
  (outcome.traffic?.map Traffic.requests).getD []

namespace Client

/-- Whether a client gets its connection to a peer. -/
def Connects (client : Client) (peer : Peer) : Prop :=
  peer.refusal? = none ∧ peer.ending ≠ .hang ∧ client.connectTimeout ≠ 0

instance (client : Client) (peer : Peer) : Decidable (client.Connects peer) :=
  inferInstanceAs (Decidable (_ ∧ _ ∧ _))

/-- The first turn of a negotiation that gets its connection. -/
def firstTurn (client : Client) (peer : Peer) (s : Session) : Turn :=
  ⟨s, {}, .connected, peer.arrivals client.readBufferSize.toNat⟩

variable {client : Client} {peer : Peer}

/-- The first turn sends the header of the stream, if writes do not fail. -/
theorem flushed_firstTurn (client : Client) (hw : peer.writeFailure? = none) (id : String) (credentials : Credentials)
    (nonce : String) :
    (client.firstTurn peer (Session.new id credentials nonce)).flushed peer =
      (({} : Traffic).sending [(Stanza.streamHeader credentials.host).toBytes], .ok ()) := by
  have hu : (client.firstTurn peer (Session.new id credentials nonce)).session.Underway :=
    Session.underway_new id credentials nonce
  exact Turn.flushed_of_ok hu hw rfl

/-- The first turn leads to the second if the peer takes the header of the stream and sends something. -/
theorem leadsTo_second {event : Event} {later : List Event} (hl : peer.arrivals client.readBufferSize.toNat = event :: later)
    (hw : peer.writeFailure? = none) (id : String) (credentials : Credentials) (nonce : String) :
    Turn.LeadsTo peer (client.firstTurn peer (Session.new id credentials nonce)) [.connected]
      ⟨(Session.new id credentials nonce).openStream.1,
        ({} : Traffic).sending [(Stanza.streamHeader credentials.host).toBytes], event, later⟩ := by
  have hu : (client.firstTurn peer (Session.new id credentials nonce)).session.Underway :=
    Session.underway_new id credentials nonce
  have hf := flushed_firstTurn client hw id credentials nonce
  have hnext := Turn.next?_of_quiet hu rfl rfl (congrArg Prod.snd hf) hl
  rw [hf] at hnext
  exact .on hnext .here

/-- With a connection, a negotiation goes from its first turn on. -/
theorem negotiate_of_connects (h : client.Connects peer) (s : Session) :
    client.negotiate peer s = client.outcome peer (client.firstTurn peer s) := by
  obtain ⟨hrefusal, hhang, htimeout⟩ := h
  rw [negotiate, hrefusal]
  simp only [hhang, htimeout, or_self, if_false]
  rfl

/-- Without a connection there is nothing to be done to it, and the result is an error. -/
theorem negotiate_of_not_connects (h : ¬client.Connects peer) (s : Session) :
    (client.negotiate peer s).requests = [] ∧ ∃ e, (client.negotiate peer s).result = .error e := by
  unfold negotiate
  split
  · exact ⟨rfl, _, rfl⟩
  · rename_i hrefusal
    split
    · exact ⟨rfl, _, rfl⟩
    · rename_i hattempt
      obtain ⟨hhang, htimeout⟩ := not_or.mp hattempt
      exact absurd ⟨hrefusal, hhang, htimeout⟩ h

end Client

end StreamAuth
