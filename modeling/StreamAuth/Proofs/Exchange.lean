import StreamAuth.Client.Negotiate
import StreamAuth.Proofs.Causes
import StreamAuth.Proofs.Counters

/-!
# How an exchange goes

A client that drives a session over a connection hands it one event after the other, and after each of them does what the session
has asked for. `Converses` is that loop as a relation, with the events that were read, one constructor for each way in which a
turn of it can go. The events of an exchange are handled by the session like calls of its own: what the peer receives begins what
those calls write (`Converses.writes`), and an exchange that succeeds has gone through all of them (`Converses.negotiated`).
-/

namespace StreamAuth

/-! ## Traffic -/

namespace Traffic

/-- The traffic with some more writes that the peer receives. -/
def sending (t : Traffic) (writes : List Bytes) : Traffic :=
  ⟨t.requests ++ writes.map .sent⟩

@[simp] theorem writes_empty : ({} : Traffic).writes = [] := rfl

@[simp] theorem writes_sending (t : Traffic) (writes : List Bytes) : (t.sending writes).writes = t.writes ++ writes := by
  have hsent : (writes.map Request.sent).filterMap Request.sent? = writes := by
    rw [List.filterMap_map]
    exact List.filterMap_some
  rw [Traffic.writes, sending, List.filterMap_append, hsent]
  rfl

@[simp] theorem writes_refused (t : Traffic) (bytes : Bytes) : (t.after (.refused bytes)).writes = t.writes := by
  rw [Traffic.writes, after, List.filterMap_append]
  exact List.append_nil _

@[simp] theorem writes_shutdown (t : Traffic) : (t.after .shutdown).writes = t.writes := by
  rw [Traffic.writes, after, List.filterMap_append]
  exact List.append_nil _

/-- A write is received, or it fails as the peer's writes do. -/
theorem write_cases (peer : Peer) (bytes : Bytes) (t : Traffic) :
    t.write peer bytes = (t.after (.sent bytes), .ok ()) ∨
      ∃ index cause, peer.writeFailure? = some (index, cause) ∧
        t.write peer bytes = (t.after (.refused bytes), .error cause) := by
  unfold write
  split
  · rename_i index cause hfailure
    split
    · exact Or.inr ⟨index, cause, hfailure, rfl⟩
    · exact Or.inl rfl
  · exact Or.inl rfl

/-- All writes are received, or those in front of the first one that fails. -/
theorem writeAll_cases (peer : Peer) (writes : List Bytes) (t : Traffic) :
    t.writeAll peer writes = (t.sending writes, .ok ()) ∨
      ∃ sent bytes index cause, peer.writeFailure? = some (index, cause) ∧ sent ++ [bytes] <+: writes ∧
        t.writeAll peer writes = ((t.sending sent).after (.refused bytes), .error cause) := by
  induction writes generalizing t with
  | nil => exact Or.inl (by rw [writeAll, sending, List.map_nil, List.append_nil])
  | cons bytes writes ih =>
    have hsending : ∀ sent, (t.after (.sent bytes)).sending sent = t.sending (bytes :: sent) := by
      intro sent
      simp only [sending, after, List.map_cons, List.append_assoc, List.singleton_append]
    rcases write_cases peer bytes t with hwrite | ⟨index, cause, hfailure, hwrite⟩
    · simp only [writeAll, hwrite]
      rcases ih (t.after (.sent bytes)) with hall | ⟨sent, refused, index, cause, hfailure, hp, hall⟩
      · exact Or.inl (by rw [hall, hsending])
      · refine Or.inr ⟨bytes :: sent, refused, index, cause, hfailure, List.cons_prefix_cons.mpr ⟨rfl, hp⟩, ?_⟩
        rw [hall, hsending]
    · refine Or.inr ⟨[], bytes, index, cause, hfailure, List.cons_prefix_cons.mpr ⟨rfl, List.nil_prefix⟩, ?_⟩
      simp only [writeAll, hwrite, sending, List.map_nil, List.append_nil]

/-- A flush fails at a write, and does nothing behind it; or all that was to be written is received, and the connection is shut
down if it was to be. -/
theorem flush_cases (t : Traffic) (peer : Peer) (outbox : Outbox) :
    (∃ sent bytes index cause, peer.writeFailure? = some (index, cause) ∧ sent ++ [bytes] <+: outbox.pending ∧
        t.flush peer outbox = ((t.sending sent).after (.refused bytes), .error cause)) ∨
      t.flush peer outbox =
        if outbox.disconnecting then (t.sending outbox.pending).shutdown peer else (t.sending outbox.pending, .ok ()) := by
  unfold flush
  rcases writeAll_cases peer outbox.pending t with hall | ⟨sent, bytes, index, cause, hfailure, hp, hall⟩
  · exact Or.inr (by rw [hall])
  · exact Or.inl ⟨sent, bytes, index, cause, hfailure, hp, by rw [hall]⟩

/-- What a flush writes begins what was to be written, and is all of it if nothing fails. -/
theorem flush_writes (traffic : Traffic) (peer : Peer) (outbox : Outbox) :
    (traffic.flush peer outbox).1.writes <+: traffic.writes ++ outbox.pending ∧
      ((traffic.flush peer outbox).2 = .ok () → (traffic.flush peer outbox).1.writes = traffic.writes ++ outbox.pending) := by
  rcases flush_cases traffic peer outbox with ⟨sent, bytes, _, cause, _, hp, hf⟩ | hf
  · rw [hf]
    refine ⟨?_, nofun⟩
    rw [writes_refused, writes_sending]
    exact (List.prefix_append_right_inj _).mpr ((List.prefix_append _ _).trans hp)
  · have hw : (traffic.flush peer outbox).1.writes = traffic.writes ++ outbox.pending := by
      rw [hf]
      split
      · rw [shutdown, writes_shutdown, writes_sending]
      · rw [writes_sending]
    rw [hw]
    exact ⟨List.prefix_refl _, fun _ => rfl⟩

end Traffic

/-! ## What a step asks an outbox for -/

namespace Session

/-- An outbox keeps what is to be written. -/
theorem pending_foldl_perform (actions : List Action) (outbox : Outbox) :
    (actions.foldl perform outbox).pending = outbox.pending ++ actions.filterMap writeOf? := by
  induction actions generalizing outbox with
  | nil => simp
  | cons action actions ih =>
    rw [List.foldl_cons, ih]
    cases action with
    | write bytes => simp [perform, Transport.write, writeOf?]
    | challenge c => simp [perform, writeOf?, List.filterMap_cons]
    | disconnect => simp [perform, Transport.disconnect, writeOf?, List.filterMap_cons]

/-- What an event is to write is what the session returns to be written. -/
theorem pending_dispatch (s : Session) (event : Event) :
    (s.dispatch event ({} : Outbox)).2.1.pending = (returned (s.handle event).2).filterMap writeOf? := by
  unfold dispatch
  generalize s.handle event = call
  obtain ⟨t, result⟩ := call
  cases result with
  | error e => cases s.isClosed <;> rfl
  | ok actions =>
    have hpending := pending_foldl_perform actions {}
    rw [List.nil_append] at hpending
    simp only [returned]
    cases actions.filterMap challengeOf? with
    | cons c cs => exact hpending
    | nil => cases t.held? <;> exact hpending

/-- A dispatch that returns challenges returns those of the call that it is. It holds an error only behind some. -/
theorem handle_of_dispatch_ok {s t : Session} {event : Event} {outbox : Outbox} {challenges : List Challenge}
    (hd : s.dispatch event ({} : Outbox) = (t, outbox, .ok challenges)) :
    ∃ actions, s.handle event = (t, .ok actions) ∧ actions.filterMap challengeOf? = challenges ∧
      (challenges = [] → t.held? = none) := by
  unfold dispatch at hd
  generalize s.handle event = call at hd ⊢
  obtain ⟨u, result⟩ := call
  cases result with
  | error e => cases hs : s.isClosed <;> simp only [hs] at hd <;> cases hd
  | ok actions =>
    refine ⟨actions, ?_⟩
    simp only at hd
    cases hc : actions.filterMap challengeOf? with
    | cons c cs =>
      simp only [hc] at hd
      cases hd
      exact ⟨rfl, rfl, nofun⟩
    | nil =>
      cases hh : u.held? with
      | none =>
        simp only [hc, hh] at hd
        cases hd
        exact ⟨rfl, rfl, fun _ => hh⟩
      | some e =>
        simp only [hc, hh] at hd
        cases hd

/-- An open session whose call has left no error to be told is still open, and the event has ended on none. -/
theorem IsOpen.handle_ok {s t : Session} (h : s.IsOpen) {event : Event} {actions : List Action}
    (hcall : s.handle event = (t, .ok actions)) (hh : t.held? = none) :
    (s.advance event).error? = none ∧ (s.advance event).session = t ∧ t.IsOpen := by
  cases he : (s.advance event).error? with
  | none =>
    have hopen := h.advance he
    rw [h.handle_of_ok he] at hcall
    cases hcall
    exact ⟨rfl, rfl, hopen⟩
  | some e =>
    rcases h.handle_of_error he with ⟨_, hcall'⟩ | ⟨_, hcall'⟩
    · cases hcall.symm.trans hcall'
    · cases hcall.symm.trans hcall'
      cases hh

/-- The errors that an open session tells of an event are the ones that the event ends on. -/
theorem IsOpen.error?_of_told {s t : Session} (h : s.IsOpen) {event : Event} {outbox : Outbox} {e : Error}
    {result : Except Error (List Challenge)} (hd : s.dispatch event ({} : Outbox) = (t, outbox, result))
    (htold : result = .error e ∨ t.held? = some e) : (s.advance event).error? = some e := by
  cases he : (s.advance event).error? with
  | none =>
    have hheld := (h.advance he).held
    rw [h.dispatch_of_ok he] at hd
    cases hd
    rcases htold with htold | htold
    · cases htold
    · cases htold.symm.trans hheld
  | some e' =>
    obtain ⟨held?, result', hnext, hresult⟩ := h.dispatch_of_error he ({} : Outbox)
    cases hd.symm.trans hnext
    rcases hresult with ⟨rfl, _, rfl⟩ | ⟨rfl, _, rfl⟩ <;> rcases htold with htold | htold <;> cases htold <;> rfl

end Session

/-! ## The loop of a client -/

namespace Client

variable {client : Client} {peer : Peer}

/-- How an exchange goes from an event on, with the events that are read after it: to an error of the session, to a failure to do
what the session asks for, to a challenge, into silence, or on to the next event. -/
inductive Converses (client : Client) (peer : Peer) : Session → Traffic → Event → List Event → Outcome → Prop where
  | failed {s t : Session} {traffic traffic' : Traffic} {event : Event} {outbox : Outbox} {e : Error}
      {flushed : Except SystemError Unit} :
      s.dispatch event ({} : Outbox) = (t, outbox, .error e) → traffic.flush peer outbox = (traffic', flushed) →
      Converses client peer s traffic event [] ⟨.error e, some traffic'⟩
  | unanswered {s t : Session} {traffic traffic' : Traffic} {event : Event} {outbox : Outbox} {challenges : List Challenge}
      {cause : SystemError} :
      s.dispatch event ({} : Outbox) = (t, outbox, .ok challenges) → traffic.flush peer outbox = (traffic', .error cause) →
      Converses client peer s traffic event [] ⟨.error (.system cause), some traffic'⟩
  | challenged {s t : Session} {traffic traffic' : Traffic} {event : Event} {outbox : Outbox} {challenge : Challenge}
      {challenges : List Challenge} :
      s.dispatch event ({} : Outbox) = (t, outbox, .ok (challenge :: challenges)) →
      traffic.flush peer outbox = (traffic', .ok ()) →
      Converses client peer s traffic event [] ⟨t.conclude challenge, some traffic'⟩
  | silent {s t : Session} {traffic traffic' : Traffic} {event : Event} {outbox : Outbox} :
      s.dispatch event ({} : Outbox) = (t, outbox, .ok []) → traffic.flush peer outbox = (traffic', .ok ()) →
      Converses client peer s traffic event []
        ⟨.error (.timeout (.data client.readTimeout t.phase)), some (traffic'.shutdown peer).1⟩
  | answered {s t : Session} {traffic traffic' : Traffic} {event next : Event} {outbox : Outbox} {read : List Event}
      {outcome : Outcome} :
      s.dispatch event ({} : Outbox) = (t, outbox, .ok []) → traffic.flush peer outbox = (traffic', .ok ()) →
      Converses client peer t traffic' next read outcome → Converses client peer s traffic event (next :: read) outcome

/-- An exchange goes as `Converses` says, with as many events as are read. -/
theorem converses_converse (later : List Event) (session : Session) (traffic : Traffic) (event : Event) :
    ∃ read, read <+: later ∧
      Converses client peer session traffic event read (client.converse peer session traffic event later) := by
  induction later generalizing session traffic event with
  | nil =>
    refine ⟨[], List.prefix_refl _, ?_⟩
    rw [converse]
    rcases hd : session.dispatch event ({} : Outbox) with ⟨t, outbox, e | _ | ⟨challenge, challenges⟩⟩ <;>
      rcases hf : traffic.flush peer outbox with ⟨traffic', cause | _⟩ <;> simp only [hf]
    · exact .failed hd hf
    · exact .failed hd hf
    · exact .unanswered hd hf
    · exact .silent hd hf
    · exact .unanswered hd hf
    · exact .challenged hd hf
  | cons next later ih =>
    rw [converse]
    rcases hd : session.dispatch event ({} : Outbox) with ⟨t, outbox, e | _ | ⟨challenge, challenges⟩⟩ <;>
      rcases hf : traffic.flush peer outbox with ⟨traffic', cause | _⟩ <;> simp only [hf]
    · exact ⟨[], List.nil_prefix, .failed hd hf⟩
    · exact ⟨[], List.nil_prefix, .failed hd hf⟩
    · exact ⟨[], List.nil_prefix, .unanswered hd hf⟩
    · obtain ⟨read, hread, hconverses⟩ := ih t traffic' next
      exact ⟨next :: read, List.cons_prefix_cons.mpr ⟨rfl, hread⟩, .answered hd hf hconverses⟩
    · exact ⟨[], List.nil_prefix, .unanswered hd hf⟩
    · exact ⟨[], List.nil_prefix, .challenged hd hf⟩

/-- The calls behind a call that has returned actions. -/
theorem calls_of_handle {s t : Session} {event : Event} {actions : List Action} (h : s.handle event = (t, .ok actions))
    (events : List Event) :
    s.calls ((event :: events).map .handle) =
      ((t.calls (events.map .handle)).1, actions :: (t.calls (events.map .handle)).2) := by
  rw [List.map_cons, Session.calls, Session.call, h]
  rfl

/-- A turn of the loop that is not its last, or that ends it well: the session has handled the event and is still open, and the
peer has all that it was to be sent. -/
theorem turn {s t : Session} {traffic traffic' : Traffic} {event : Event} {outbox : Outbox} {challenges : List Challenge}
    (hs : s.IsOpen) (hd : s.dispatch event ({} : Outbox) = (t, outbox, .ok challenges))
    (hf : traffic.flush peer outbox = (traffic', .ok ())) (hh : t.held? = none) :
    (s.advance event).error? = none ∧ (s.advance event).session = t ∧ t.IsOpen ∧
      ∃ actions, s.handle event = (t, .ok actions) ∧ actions.filterMap Session.challengeOf? = challenges ∧
        traffic'.writes = traffic.writes ++ actions.filterMap Session.writeOf? := by
  obtain ⟨actions, hcall, hchallenges, _⟩ := Session.handle_of_dispatch_ok hd
  obtain ⟨he, ht, hopen⟩ := hs.handle_ok hcall hh
  have hpending := s.pending_dispatch event
  have hflush := (traffic.flush_writes peer outbox).2
  rw [hd, hcall] at hpending
  rw [hf] at hflush
  refine ⟨he, ht, hopen, actions, hcall, hchallenges, ?_⟩
  rw [hflush rfl, hpending]
  rfl

/-- What the peer has received begins what the session writes when it handles the events of the exchange itself. -/
theorem Converses.writes {s : Session} {traffic : Traffic} {event : Event} {read : List Event} {outcome : Outcome}
    (h : Converses client peer s traffic event read outcome) (hs : s.IsOpen) :
    ∃ traffic', outcome.traffic? = some traffic' ∧
      traffic'.writes <+:
        traffic.writes ++ (s.calls ((event :: read).map .handle)).2.flatten.filterMap Session.writeOf? := by
  -- One step writes a beginning of what its event asks for.
  have hstep : ∀ {s t : Session} {traffic traffic' : Traffic} {event : Event} {outbox : Outbox} {flushed result},
      s.dispatch event ({} : Outbox) = (t, outbox, result) → traffic.flush peer outbox = (traffic', flushed) →
      traffic'.writes <+: traffic.writes ++ (s.calls [.handle event]).2.flatten.filterMap Session.writeOf? := by
    intro s t traffic traffic' event outbox flushed result hd hf
    have hpending := s.pending_dispatch event
    have hflush := (traffic.flush_writes peer outbox).1
    rw [hd] at hpending
    rw [hf, hpending] at hflush
    simpa [Session.calls, Session.call] using hflush
  induction h with
  | failed hd hf => exact ⟨_, rfl, hstep hd hf⟩
  | unanswered hd hf => exact ⟨_, rfl, hstep hd hf⟩
  | challenged hd hf => exact ⟨_, rfl, hstep hd hf⟩
  | silent hd hf =>
    refine ⟨_, rfl, ?_⟩
    rw [Traffic.shutdown, Traffic.writes_shutdown]
    exact hstep hd hf
  | answered hd hf _ ih =>
    obtain ⟨_, _, _, hheld⟩ := Session.handle_of_dispatch_ok hd
    obtain ⟨_, _, ht, actions, hcall, _, hsent⟩ := turn hs hd hf (hheld rfl)
    obtain ⟨final, hfinal, hwrites⟩ := ih ht
    refine ⟨final, hfinal, ?_⟩
    rw [calls_of_handle hcall, List.flatten_cons, List.filterMap_append, ← List.append_assoc, ← hsent]
    exact hwrites

/-- An exchange that succeeds has gone through all of its events, with no failure of the transport among them: it has left the
session open, with a mechanism and with the first challenge, and all that was to be written was. -/
theorem Converses.negotiated {s : Session} {traffic : Traffic} {event : Event} {read : List Event} {outcome : Outcome}
    {n : Negotiation} (h : Converses client peer s traffic event read outcome) (hs : s.IsOpen) (hok : outcome.result = .ok n) :
    let run := s.calls ((event :: read).map .handle)
    run.1.IsOpen ∧ run.1.mechanism? = some n.mechanism ∧ run.1.stats = n.stats ∧
      (∃ others, run.2.flatten.filterMap Session.challengeOf? = n.challenge :: others) ∧
      (∀ fault, .failed fault ∉ event :: read) ∧
      ∃ traffic', outcome.traffic? = some traffic' ∧
        traffic'.writes = traffic.writes ++ run.2.flatten.filterMap Session.writeOf? := by
  -- A failure of the transport is an error.
  have hfailed : ∀ {s : Session} {event : Event}, (s.advance event).error? = none → ∀ fault, event ≠ .failed fault := by
    rintro s event he fault rfl
    cases he
  induction h with
  | failed => cases hok
  | unanswered => cases hok
  | silent => cases hok
  | @challenged s t traffic traffic' event outbox challenge challenges hd hf =>
    unfold Session.conclude at hok
    cases hh : t.held? with
    | some e =>
      rw [hh] at hok
      cases hok
    | none =>
      cases hm : t.mechanism? with
      | none =>
        rw [hh, hm] at hok
        cases hok
      | some m =>
        rw [hh, hm] at hok
        cases hok
        obtain ⟨he, _, ht, actions, hcall, hchallenges, hsent⟩ := turn hs hd hf hh
        intro run
        have hrun : run = (t, [actions]) := calls_of_handle hcall []
        rw [hrun]
        refine ⟨ht, hm, rfl, ⟨challenges, ?_⟩, fun fault hmem => ?_, traffic', rfl, ?_⟩
        · simpa using hchallenges
        · exact hfailed he fault (List.mem_singleton.mp hmem).symm
        · simpa using hsent
  | @answered s t traffic traffic' event next outbox read outcome hd hf _ ih =>
    obtain ⟨_, _, _, hheld⟩ := Session.handle_of_dispatch_ok hd
    obtain ⟨he, _, ht, actions, hcall, hchallenges, hsent⟩ := turn hs hd hf (hheld rfl)
    obtain ⟨hopen, hm, hstats, ⟨others, hothers⟩, hnot, final, hfinal, hwrites⟩ := ih ht hok
    intro run
    have hrun : run = _ := calls_of_handle hcall (next :: read)
    rw [hrun]
    refine ⟨hopen, hm, hstats, ⟨others, ?_⟩, fun fault hmem => ?_, final, hfinal, ?_⟩
    · rw [List.flatten_cons, List.filterMap_append, hchallenges, hothers]
      rfl
    · rcases List.mem_cons.mp hmem with hmem | hmem
      · exact hfailed he fault hmem.symm
      · exact hnot fault hmem
    · rw [hwrites, hsent, List.flatten_cons, List.filterMap_append, List.append_assoc]

/-- An exchange in which all events come when they may ends on no misplaced one, and with a mechanism if it ends on a
challenge. -/
theorem Converses.ne_misplaced {credentials : Credentials} {nonce : String} {s : Session} {o : Output} {traffic : Traffic}
    {event : Event} {read : List Event} {outcome : Outcome} (h : Converses client peer s traffic event read outcome)
    (hs : s.Shows credentials nonce o) (hopen : s.IsOpen) (hdue : s.Due event) (hread : .connected ∉ read)
    {misplaced : MisplacedEvent} : outcome.result ≠ .error (.misplaced misplaced) := by
  induction h generalizing o with
  | failed hd =>
    intro he
    cases he
    exact hdue.ne_misplaced (hopen.error?_of_told hd (Or.inl rfl))
  | unanswered => nofun
  | silent => nofun
  | @challenged s t traffic traffic' event outbox challenge challenges hd hf =>
    obtain ⟨actions, hcall, hchallenges, _⟩ := Session.handle_of_dispatch_ok hd
    -- A challenge is handed out only once a mechanism is announced.
    have hm : t.mechanism? ≠ none := by
      obtain ⟨_, hhistory, _⟩ := Session.history_call hs (.handle event)
      rw [Session.call, hcall] at hhistory
      exact hhistory.mechanism (by rw [Session.returned, hchallenges]; exact List.cons_ne_nil _ _)
    intro he
    unfold Session.conclude at he
    cases hh : t.held? with
    | some e =>
      rw [hh] at he
      cases he
      exact hdue.ne_misplaced (hopen.error?_of_told hd (Or.inr hh))
    | none =>
      cases hmechanism : t.mechanism? with
      | none => exact hm hmechanism
      | some m =>
        rw [hh, hmechanism] at he
        cases he
  | @answered s t traffic traffic' event next outbox read outcome hd hf _ ih =>
    obtain ⟨_, _, _, hheld⟩ := Session.handle_of_dispatch_ok hd
    obtain ⟨he, rfl, ht, actions, hcall, _⟩ := turn hopen hd hf (hheld rfl)
    obtain ⟨o', hshows, _⟩ := Session.shows_call hs (.handle event)
    rw [Session.call, hcall] at hshows
    obtain ⟨hne, hrest⟩ := List.ne_and_not_mem_of_not_mem_cons hread
    exact ih hshows ht (Or.inr ⟨fun hc => hne hc.symm, Session.waiting_of_advance he⟩) hrest

end Client

end StreamAuth
