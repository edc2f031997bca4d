import StreamAuth.Proofs.Negotiation

/-!
# Shutting down

A connection is shut down where an exchange ends on an error, and nowhere else: in the turn that ends on an error of the session,
or in silence. All turns before the last one only write. That leaves three ways for an exchange to end (`Outcome.Ends`), told apart
by the last thing that is done to the connection.
-/

namespace StreamAuth

/-- The ways in which an exchange ends: with a negotiation, and nothing but writes; with an error, and a shutdown behind the writes;
or with an error, and a write that has failed, as the peer's writes may. -/
inductive Outcome.Ends (peer : Peer) : Outcome → Prop where
  | negotiated (n : Negotiation) (sent : List Bytes) : Ends peer ⟨.ok n, some (({} : Traffic).sending sent)⟩
  | shutDown (e : Error) (sent : List Bytes) : Ends peer ⟨.error e, some ((({} : Traffic).sending sent).after .shutdown)⟩
  | refused (e : Error) (sent : List Bytes) (bytes : Bytes) :
      peer.writeFailure? ≠ none → Ends peer ⟨.error e, some ((({} : Traffic).sending sent).after (.refused bytes))⟩

namespace Traffic

theorem sending_sending (t : Traffic) (sent more : List Bytes) : (t.sending sent).sending more = t.sending (sent ++ more) := by
  simp only [sending, List.map_append, List.append_assoc]

theorem shutdown_not_mem_sending (sent : List Bytes) : .shutdown ∉ (({} : Traffic).sending sent).requests := by
  intro h
  obtain ⟨_, _, hc⟩ := List.mem_map.mp h
  cases hc

end Traffic

namespace Outcome.Ends

variable {peer : Peer} {outcome : Outcome}

/-- The connection is shut down at most once, and nothing is done to it behind that. -/
theorem shutdown_last (h : outcome.Ends peer) :
    outcome.requests.count .shutdown ≤ 1 ∧
      ∀ earlier later, outcome.requests = earlier ++ .shutdown :: later → later = [] := by
  -- The requests are writes, or one more request behind writes.
  have hbehind : ∀ (sent : List Bytes) (request : Request) (earlier later : List Request),
      (({} : Traffic).sending sent).requests ++ [request] = earlier ++ .shutdown :: later → later = [] := by
    intro sent request earlier later heq
    rcases List.eq_nil_or_concat later with hnil | ⟨init, last, rfl⟩
    · exact hnil
    · rw [List.concat_eq_append, ← List.cons_append, ← List.append_assoc] at heq
      have hmem : Request.shutdown ∈ (({} : Traffic).sending sent).requests := by
        rw [(List.append_inj' heq rfl).1]
        exact List.mem_append_right _ List.mem_cons_self
      exact absurd hmem (Traffic.shutdown_not_mem_sending sent)
  have hcount := fun sent => List.count_eq_zero.mpr (Traffic.shutdown_not_mem_sending sent)
  cases h with
  | negotiated n sent =>
    refine ⟨Nat.le_trans (Nat.le_of_eq (hcount sent)) (Nat.zero_le 1), fun earlier later heq => ?_⟩
    refine absurd ?_ (Traffic.shutdown_not_mem_sending sent)
    rw [show (({} : Traffic).sending sent).requests = _ from heq]
    exact List.mem_append_right _ List.mem_cons_self
  | shutDown e sent =>
    refine ⟨Nat.le_of_eq ?_, fun earlier later heq => hbehind sent _ earlier later heq⟩
    exact (List.count_append ..).trans (by rw [hcount sent]; rfl)
  | refused e sent bytes _ =>
    refine ⟨Nat.le_trans (Nat.le_of_eq (m := 0) ?_) (Nat.zero_le 1), fun earlier later heq => hbehind sent _ earlier later heq⟩
    exact (List.count_append ..).trans (by rw [hcount sent]; rfl)

/-- With a negotiation at the end, the connection is not shut down. -/
theorem shutdown_not_mem (h : outcome.Ends peer) {n : Negotiation} (hok : outcome.result = .ok n) : .shutdown ∉ outcome.requests := by
  cases h with
  | negotiated _ sent => exact Traffic.shutdown_not_mem_sending sent
  | shutDown => cases hok
  | refused => cases hok

/-- With an error at the end and no write that fails, the connection is shut down. -/
theorem shutdown_mem (h : outcome.Ends peer) (hwrites : ∀ bytes, .refused bytes ∉ outcome.requests) {e : Error}
    (he : outcome.result = .error e) : .shutdown ∈ outcome.requests := by
  cases h with
  | negotiated => cases he
  | shutDown => exact List.mem_append_right _ List.mem_cons_self
  | refused _ _ bytes _ => exact absurd (List.mem_append_right _ List.mem_cons_self) (hwrites bytes)

/-- If writes do not fail, none has failed. -/
theorem refused_not_mem (h : outcome.Ends peer) (hw : peer.writeFailure? = none) (bytes : Bytes) :
    .refused bytes ∉ outcome.requests := by
  have hsent : ∀ sent, .refused bytes ∉ (({} : Traffic).sending sent).requests := by
    intro sent hmem
    obtain ⟨_, _, hc⟩ := List.mem_map.mp hmem
    cases hc
  intro hmem
  cases h with
  | negotiated n sent => exact hsent sent hmem
  | shutDown e sent =>
    rcases List.mem_append.mp hmem with hmem | hmem
    · exact hsent sent hmem
    · cases List.mem_singleton.mp hmem
  | refused _ _ _ hfailure => exact hfailure hw

end Outcome.Ends

/-! ## Every exchange ends so -/

namespace Client

variable {client : Client} {peer : Peer}

/-- A turn before which there were only writes ends the exchange in one of the three ways, or leads on with only writes. -/
theorem ends_or_proceeds (turn : Turn) (h : turn.session.Underway) {written : List Bytes}
    (ht : turn.traffic = ({} : Traffic).sending written) :
    (client.outcome peer turn).Ends peer ∨
      ∃ t written', t.Underway ∧
        client.outcome peer turn = client.proceed peer t (({} : Traffic).sending written') turn.later := by
  have hsending : ∀ more, turn.traffic.sending more = ({} : Traffic).sending (written ++ more) := by
    intro more
    rw [ht, Traffic.sending_sending]
  rcases Turn.flushed_cases h peer with ⟨sent, bytes, cause, hfailure, hf⟩ | ⟨he, hf⟩ | ⟨⟨e, he⟩, hf⟩
  · obtain ⟨e, houtcome⟩ := Turn.outcome_of_failure client peer h (Or.inr ⟨cause, congrArg Prod.snd hf⟩)
    rw [houtcome, hf, hsending]
    exact Or.inl (.refused _ _ _ hfailure)
  · cases hc : turn.run.challenges with
    | nil =>
      refine Or.inr ⟨turn.run.session, written ++ turn.run.outbox.pending, (h.advance he).1, ?_⟩
      rw [Turn.outcome_of_quiet h he hc (by rw [hf]), hf, hsending]
    | cons c cs =>
      obtain ⟨m, _, houtcome⟩ := Turn.outcome_of_challenge client h he hc (congrArg Prod.snd hf)
      rw [houtcome, hf, hsending]
      exact Or.inl (.negotiated _ _)
  · obtain ⟨e', houtcome⟩ := Turn.outcome_of_failure client peer h (Or.inl ⟨e, he⟩)
    rw [houtcome, hf, hsending]
    exact Or.inl (.shutDown _ _)

/-- An exchange that has only written so far ends in one of the three ways, whatever is still to be read. -/
theorem ends_proceed (events : List Event) {s : Session} (h : s.Underway) (written : List Bytes) :
    (client.proceed peer s (({} : Traffic).sending written) events).Ends peer := by
  induction events generalizing s written with
  | nil => exact .shutDown _ _
  | cons event later ih =>
    rcases ends_or_proceeds ⟨s, ({} : Traffic).sending written, event, later⟩ h rfl with hends | ⟨t, written', ht, houtcome⟩
    · exact hends
    · rw [proceed, houtcome]
      exact ih ht written'

/-- With a connection, a negotiation ends in one of the three ways. -/
theorem ends_negotiate (h : client.Connects peer) (id : String) (credentials : Credentials) (nonce : String) :
    (client.negotiate peer (Session.new id credentials nonce)).Ends peer := by
  rw [negotiate_of_connects h]
  exact ends_proceed (.connected :: peer.arrivals client.readBufferSize.toNat) (Session.underway_new id credentials nonce) []

/-- If writes do not fail, none has failed in a negotiation. -/
theorem refused_not_mem_negotiate (hw : peer.writeFailure? = none) (id : String) (credentials : Credentials) (nonce : String)
    (bytes : Bytes) : .refused bytes ∉ (client.negotiate peer (Session.new id credentials nonce)).requests := by
  by_cases h : client.Connects peer
  · exact (ends_negotiate h id credentials nonce).refused_not_mem hw bytes
  · rw [(negotiate_of_not_connects h _).1]
    exact List.not_mem_nil

/-- How a client treats its connection, in four parts. Whatever the peer sends and whichever request fails, for a new session:
1. The connection is shut down at most once.
2. Nothing is done to it behind that.
3. It is not shut down if the client ends with a negotiation.
4. It is shut down once if there is a connection, no write fails, and the client ends with an error of any kind. -/
theorem shutdown_of_negotiate (client : Client) (peer : Peer) (id : String) (credentials : Credentials) (nonce : String) :
    let outcome := client.negotiate peer (Session.new id credentials nonce)
    outcome.requests.count .shutdown ≤ 1 ∧
      (∀ earlier later, outcome.requests = earlier ++ .shutdown :: later → later = []) ∧
      (∀ n, outcome.result = .ok n → .shutdown ∉ outcome.requests) ∧
      (client.Connects peer → (∀ bytes, .refused bytes ∉ outcome.requests) → (∃ e, outcome.result = .error e) →
        outcome.requests.count .shutdown = 1) := by
  intro outcome
  by_cases hconnects : client.Connects peer
  · have hends : outcome.Ends peer := ends_negotiate hconnects id credentials nonce
    obtain ⟨honce, hlast⟩ := hends.shutdown_last
    refine ⟨honce, hlast, fun n hok => hends.shutdown_not_mem hok, fun _ hwrites ⟨e, he⟩ => ?_⟩
    exact Nat.le_antisymm honce (List.one_le_count_iff.mpr (hends.shutdown_mem hwrites he))
  · obtain ⟨hrequests, e, he⟩ := negotiate_of_not_connects hconnects (Session.new id credentials nonce)
    change outcome.requests = [] at hrequests
    rw [hrequests]
    refine ⟨Nat.zero_le 1, fun earlier later heq => ?_, fun n hok => ?_, fun hc => absurd hc hconnects⟩
    · simp at heq
    · cases he.symm.trans hok

/-- Three peers: one that says nothing and meets the shutdown with an error, one that fails, and one with which the client comes to
a challenge. The connection is shut down with the first two of them. -/
theorem shutdown_of_negotiate_exits :
    let client : Client := ⟨"localhost:5222", 10, 30, 4096⟩
    let s := Session.new "id" ⟨"host", "user", "password"⟩ "nonce"
    let silent : Peer := { segments := [], ending := .silent, shutdownError? := some ⟨107⟩ }
    let refusing : Peer := { segments := [Utf8.ofString "<failure></failure>"], ending := .close }
    let challenging : Peer := { segments := [offering], ending := .close }
    (client.negotiate silent s).requests.count .shutdown = 1 ∧ (client.negotiate refusing s).requests.count .shutdown = 1 ∧
      (∃ n, (client.negotiate challenging s).result = .ok n) ∧ .shutdown ∉ (client.negotiate challenging s).requests := by
  intro client s silent refusing challenging
  refine ⟨?_, ?_, ?_⟩
  · have hconnects : client.Connects silent := by decide
    have hu := Session.underway_new "id" ⟨"host", "user", "password"⟩ "nonce"
    have hwrites : silent.writeFailure? = none := rfl
    have hf := flushed_firstTurn client hwrites "id" ⟨"host", "user", "password"⟩ "nonce"
    -- Nothing is read behind the first turn, so the client waits too long.
    have houtcome : client.negotiate silent s = _ :=
      (negotiate_of_connects hconnects s).trans (Turn.outcome_of_quiet hu rfl rfl (congrArg Prod.snd hf))
    exact (shutdown_of_negotiate client silent "id" _ "nonce").2.2.2 hconnects (refused_not_mem_negotiate rfl "id" _ "nonce")
      ⟨_, congrArg Outcome.result houtcome⟩
  · have hreads : client.ReadsAtOnce refusing (Utf8.ofString "<failure></failure>") :=
      ⟨by decide, rfl, rfl, rfl, by decide +kernel, by decide +kernel⟩
    obtain ⟨turn, hturn, hu, hfollows⟩ := hreads.exists_leadsTo "id" ⟨"host", "user", "password"⟩ "nonce"
    rw [Phase.read_plainFailure] at hfollows
    have houtcome : client.negotiate refusing s = _ :=
      (negotiate_of_connects hreads.connects s).trans
        (hturn.outcome.trans (Turn.outcome_of_told hu hfollows.error (Or.inl hfollows.challenges)))
    exact (shutdown_of_negotiate client refusing "id" _ "nonce").2.2.2 hreads.connects
      (refused_not_mem_negotiate rfl "id" _ "nonce") ⟨_, congrArg Outcome.result houtcome⟩
  · have hreads : client.ReadsAtOnce challenging offering := ⟨by decide, rfl, rfl, rfl, by decide +kernel, by decide +kernel⟩
    obtain ⟨stats, hok⟩ := hreads.negotiate_offering "id" ⟨"host", "user", "password"⟩ "nonce"
    exact ⟨⟨_, hok⟩, (shutdown_of_negotiate client challenging "id" _ "nonce").2.2.1 _ hok⟩

end Client

end StreamAuth
