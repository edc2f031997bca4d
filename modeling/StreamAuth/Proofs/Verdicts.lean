import StreamAuth.Proofs.Conversation
import StreamAuth.Proofs.Negotiation

/-!
# The server's verdict

A server that closes a session says why, and the client's own requests may fail at the same time. What the server has said comes
first, with one exception: a turn that has a challenge to return holds the verdict back behind it, and then a request that fails
is told in its place.
-/

namespace StreamAuth

namespace Client

/-- Which error a client is told, for every peer and every turn of the exchange with it at which something that the server has sent
ends the session: the server's verdict, if the turn has no challenge to return before it or if all that the turn asks for
succeeds, whatever else the turn writes; and otherwise the failure of the request. -/
theorem verdict_of_negotiate (client : Client) (peer : Peer) (id : String) (credentials : Credentials) (nonce : String)
    (hconnects : client.Connects peer) {handled : List Event} {turn : Turn}
    (hturn : Turn.LeadsTo peer (client.firstTurn peer (Session.new id credentials nonce)) handled turn)
    {e : Error} (he : turn.run.error? = some e) (hserver : e.fromServer) :
    let outcome := client.negotiate peer (Session.new id credentials nonce)
    (outcome.result = .error e ↔ turn.run.challenges = [] ∨ (turn.flushed peer).2 = .ok ()) ∧
      ∀ cause, turn.run.challenges ≠ [] → (turn.flushed peer).2 = .error cause →
        outcome.result = .error (.system cause) := by
  intro outcome
  have houtcome : outcome = client.outcome peer turn := (negotiate_of_connects hconnects _).trans hturn.outcome
  have hu : turn.session.Underway := hturn.underway (Session.underway_new id credentials nonce)
  have hmasked : ∀ cause, turn.run.challenges ≠ [] → (turn.flushed peer).2 = .error cause →
      outcome.result = .error (.system cause) := by
    intro cause hc hf
    rw [houtcome, Turn.outcome_of_masked hu he hc hf]
  refine ⟨⟨fun hresult => ?_, fun htold => ?_⟩, hmasked⟩
  · -- The failure of a request is nothing that the server has sent.
    refine or_iff_not_imp_left.mpr fun hc => ?_
    cases hf : (turn.flushed peer).2 with
    | ok => rfl
    | error cause =>
      cases hresult.symm.trans (hmasked cause hc hf)
      cases hserver
  · rw [houtcome, Turn.outcome_of_told hu he htold]

end Client

/-! ## A verdict that is told -/

namespace Client

/-- The failure of a shutdown does not come before the failure that the server has sent. -/
theorem verdict_of_negotiate_failure :
    let client : Client := ⟨"localhost:5222", 10, 30, 4096⟩
    let peer : Peer := { segments := [Utf8.ofString "<failure></failure>"], ending := .close, shutdownError? := some ⟨107⟩ }
    (client.negotiate peer (Session.new "id" ⟨"host", "user", "password"⟩ "nonce")).result =
      .error (.rejected "undefined-condition") := by
  intro client peer
  have hreads : client.ReadsAtOnce peer (Utf8.ofString "<failure></failure>") :=
    ⟨by decide, rfl, rfl, rfl, by decide +kernel, by decide +kernel⟩
  obtain ⟨turn, hturn, _, hfollows⟩ := hreads.exists_leadsTo "id" ⟨"host", "user", "password"⟩ "nonce"
  rw [Phase.read_plainFailure] at hfollows
  exact (verdict_of_negotiate client peer "id" _ "nonce" hreads.connects hturn hfollows.error rfl).1.mpr (Or.inl hfollows.challenges)

end Client

/-! ## A verdict that is lost -/

theorem silent_nil : Silent [] := fun kind => by cases kind <;> decide

theorem isStanza_features :
    SpanKind.features.IsStanza (Utf8.ofString "<stream:features><mechanism>DIGEST-MD5</mechanism></stream:features>") :=
  ⟨⟨Utf8.ofString "><mechanism>DIGEST-MD5</mechanism></stream:features>", by decide +kernel, by decide +kernel⟩,
    fun other => by cases other <;> decide +kernel⟩

theorem isStanza_challenge : SpanKind.challenge.IsStanza (Utf8.ofString "<challenge>YQ==</challenge>") :=
  ⟨⟨Utf8.ofString ">YQ==</challenge>", by decide +kernel, by decide +kernel⟩, fun other => by cases other <;> decide +kernel⟩

theorem isStanza_failure : SpanKind.failure.IsStanza (Utf8.ofString "<failure></failure>") :=
  ⟨⟨Utf8.ofString "></failure>", by decide +kernel, by decide +kernel⟩, fun other => by cases other <;> decide +kernel⟩

/-- A framed stream: features, a challenge, and a failure right behind it. -/
def abort : FramedStream where
  lead := []
  arrivals := [⟨.features, _, [], isStanza_features, silent_nil⟩, ⟨.challenge, _, [], isStanza_challenge, silent_nil⟩,
    ⟨.failure, _, [], isStanza_failure, silent_nil⟩]
  tail := []
  silent := silent_nil
  unfinished := Or.inl rfl

/-- What becomes of the stream when it arrives at once. -/
theorem read_abort :
    Phase.awaitingFeatures.read abort.bytes =
      ⟨[.announce .digestMd5, .pass ⟨[97]⟩], some (.rejected "undefined-condition"), .closed, []⟩ := by
  have hfeatures : Phase.awaitingFeatures.firstSpan? abort.bytes =
      some ⟨.features, Utf8.ofString "<stream:features><mechanism>DIGEST-MD5</mechanism></stream:features>",
        Utf8.ofString "<challenge>YQ==</challenge><failure></failure>"⟩ := by decide +kernel
  have hchallenge : Phase.awaitingChallenge.firstSpan? (Utf8.ofString "<challenge>YQ==</challenge><failure></failure>") =
      some ⟨.challenge, Utf8.ofString "<challenge>YQ==</challenge>", Utf8.ofString "<failure></failure>"⟩ := by decide +kernel
  have hfailure : Phase.awaitingChallenge.firstSpan? (Utf8.ofString "<failure></failure>") =
      some ⟨.failure, Utf8.ofString "<failure></failure>", []⟩ := by decide +kernel
  rw [Phase.read_of_ok hfeatures Session.answer_features, Phase.read_of_ok hchallenge answer_challenge,
    Phase.read_of_error hfailure answer_plainFailure]
  rfl

namespace Client

/-- It is not so that the server's verdict is always told. Behind a challenge in the same turn, a failure is lost if the shutdown
that it brings about fails. -/
theorem verdict_of_negotiate_false :
    ¬∀ (client : Client) (peer : Peer) (id : String) (credentials : Credentials) (nonce : String) (handled : List Event)
      (turn : Turn) (e : Error), client.Connects peer →
      Turn.LeadsTo peer (client.firstTurn peer (Session.new id credentials nonce)) handled turn →
      turn.run.error? = some e → e.fromServer →
      (client.negotiate peer (Session.new id credentials nonce)).result = .error e := by
  intro h
  let client : Client := ⟨"localhost:5222", 10, 30, 4096⟩
  let peer : Peer := { segments := [abort.bytes], ending := .close, shutdownError? := some ⟨107⟩ }
  have hreads : client.ReadsAtOnce peer abort.bytes := ⟨by decide, rfl, rfl, rfl, by decide +kernel, by decide +kernel⟩
  obtain ⟨turn, hturn, hu, hfollows⟩ := hreads.exists_leadsTo "id" ⟨"host", "user", "password"⟩ "nonce"
  rw [read_abort] at hfollows
  have hresult := h client peer "id" _ "nonce" _ _ _ hreads.connects hturn hfollows.error rfl
  have hshutdown : peer.shutdownError? = some ⟨107⟩ := rfl
  obtain ⟨cause, hf⟩ := Turn.flushed_of_shutdownError hu hfollows.error hshutdown
  have hchallenges : turn.run.challenges ≠ [] := by
    rw [hfollows.challenges]
    exact List.cons_ne_nil _ _
  rw [negotiate_of_connects hreads.connects, hturn.outcome, Turn.outcome_of_masked hu hfollows.error hchallenges hf] at hresult
  cases hresult

end Client

end StreamAuth
