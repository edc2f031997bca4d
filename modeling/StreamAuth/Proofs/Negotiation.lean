import StreamAuth.Proofs.Encoding
import StreamAuth.Proofs.Turns

/-!
# What a negotiation comes to

A client that negotiates with a peer sends it a beginning of what a session asks for, whatever the peer sends, however it is read
and whichever request fails. If the client ends with a mechanism and a challenge, then the peer has received all of it, and the
challenge is the one that followed the features. Where a peer's bytes are read at once, what the exchange comes to is what the bytes
are read as (`ReadsAtOnce.exists_leadsTo`), and with features and a challenge it comes to both.
-/

namespace StreamAuth

/-! ## What is read from a peer -/

/-- The pieces of a byte string are the byte string. -/
theorem flatten_chunks (size : Nat) (bytes : Bytes) : (chunks size bytes).flatten = bytes := by
  induction bytes using chunks.induct size with
  | case1 => rw [chunks, dif_pos rfl, List.flatten_nil]
  | case2 bytes h ih => rw [chunks, dif_neg h, List.flatten_cons, ih, List.take_append_drop]

/-- Bytes that fit into one piece are one. -/
theorem chunks_of_length_le {size : Nat} {bytes : Bytes} (hne : bytes ≠ []) (h : bytes.length ≤ size) :
    chunks size bytes = [bytes] := by
  have hsize : bytes.length ≤ max size 1 := Nat.le_trans h (Nat.le_max_left _ _)
  rw [chunks, dif_neg hne, List.take_of_length_le hsize, List.drop_of_length_le hsize, chunks, dif_pos rfl]

namespace Peer

/-- The pieces in which a peer's bytes are read with a buffer of `size` bytes. -/
def pieces (p : Peer) (size : Nat) : List Bytes :=
  p.segments.flatMap (chunks size)

/-- However they are read, they are the peer's bytes. -/
theorem flatten_pieces (p : Peer) (size : Nat) : (p.pieces size).flatten = p.segments.flatten := by
  rw [pieces]
  induction p.segments with
  | nil => rfl
  | cons segment segments ih => rw [List.flatMap_cons, List.flatten_append, flatten_chunks, ih, List.flatten_cons]

/-- A connection is not made again while it is read. -/
theorem connected_not_mem_arrivals (p : Peer) (size : Nat) : .connected ∉ p.arrivals size := by
  unfold arrivals
  cases p.ending <;> simp

/-- What is read without a failure is some of the pieces. -/
theorem pieces_of_prefix {p : Peer} {size : Nat} {read : List Event} (h : read <+: p.arrivals size)
    (hread : ∀ fault, .failed fault ∉ read) : ∃ pieces, pieces <+: p.pieces size ∧ read = pieces.map .received := by
  -- Behind the pieces there is a failure, or nothing.
  have hending : ∃ faults : List TransportFault, p.arrivals size = (p.pieces size).map .received ++ faults.map .failed := by
    unfold arrivals
    cases p.ending
    case close => exact ⟨[.closedByPeer], rfl⟩
    case reset => exact ⟨[.read ⟨104⟩], rfl⟩
    all_goals exact ⟨[], rfl⟩
  obtain ⟨faults, hfaults⟩ := hending
  rw [hfaults] at h
  rcases List.prefix_or_prefix_of_prefix h (List.prefix_append _ _) with hp | ⟨more, rfl⟩
  · obtain ⟨pieces, hpieces, rfl⟩ := List.prefix_map_iff.mp hp
    exact ⟨pieces, hpieces, rfl⟩
  · rw [List.prefix_append_right_inj] at h
    cases more with
    | nil => exact ⟨p.pieces size, List.prefix_refl _, List.append_nil _⟩
    | cons event more =>
      obtain ⟨fault, _, rfl⟩ := List.mem_map.mp (h.subset List.mem_cons_self)
      exact absurd (List.mem_append_right _ List.mem_cons_self) (hread fault)

end Peer

/-! ## What is taken from it -/

/-- What was announced for was features. -/
theorem Taking.features_of_verdict {t : Taking} {m : Mechanism} (h : t.verdict = .ok (.announce m)) : t.kind = .features := by
  rcases SpanKind.answer_ok h with ⟨hk, _⟩ | ⟨_, _, hc⟩
  · exact hk
  · cases hc

/-- What was handed out as a challenge decodes to it. -/
theorem Taking.challenge_of_verdict {t : Taking} {c : Challenge} (h : t.verdict = .ok (.pass c)) :
    t.kind = .challenge ∧ Challenge.decode t.span = .ok c := by
  rcases SpanKind.answer_ok h with ⟨_, _, _, hm⟩ | ⟨hk, _⟩
  · cases hm
  · refine ⟨hk, ?_⟩
    rw [Taking.verdict, hk] at h
    simp only [SpanKind.answer] at h
    cases hd : Challenge.decode t.span with
    | error e =>
      rw [hd] at h
      cases h
    | ok c' =>
      rw [hd] at h
      cases h
      rfl

/-- Features, a challenge and what else was taken, if nothing of it was fatal. -/
theorem takings_of_verdicts {takings : List Taking} {m : Mechanism} {c : Challenge} {others : List Challenge}
    (h : takings.map Taking.verdict = verdicts [m] (c :: others) none) :
    ∃ offer challenge later, takings = offer :: challenge :: later ∧
      (offer.kind = .features ∧ offer.verdict = .ok (.announce m)) ∧
      (challenge.kind = .challenge ∧ Challenge.decode challenge.span = .ok c) ∧
      ∀ taking ∈ offer :: challenge :: later, taking.isFatal = false := by
  have hfatal := List.countP_eq_zero.mp (countP_isFatal h)
  obtain ⟨offer, takings, rfl, hoffer, h⟩ := List.map_eq_cons_iff.mp h
  obtain ⟨challenge, later, rfl, hchallenge, _⟩ := List.map_eq_cons_iff.mp h
  exact ⟨offer, challenge, later, rfl, ⟨Taking.features_of_verdict hoffer, hoffer⟩, Taking.challenge_of_verdict hchallenge,
    fun taking hm => Bool.eq_false_iff.mpr (hfatal taking hm)⟩

/-! ## What is sent to it -/

variable {credentials : Credentials} {nonce : String}

/-- The writes of an output: the header of the stream, and the announcement. -/
theorem Output.writes (o : Output) :
    (o.actions credentials nonce).filterMap Session.writeOf? =
      (if o.opened then [(Stanza.streamHeader credentials.host).toBytes] else []) ++
        o.announced?.toList.map fun m => (Stanza.announce m credentials.username nonce).toBytes := by
  have hchallenges : (o.challenges.map Action.challenge).filterMap Session.writeOf? = [] := by
    simp [List.filterMap_eq_nil_iff, Session.writeOf?]
  have hdisconnect : (if o.disconnected then [Action.disconnect] else []).filterMap Session.writeOf? = [] := by
    split <;> rfl
  have hannounce : (o.announced?.toList.map fun m =>
      Action.write (Stanza.announce m credentials.username nonce).toBytes).filterMap Session.writeOf? =
      o.announced?.toList.map fun m => (Stanza.announce m credentials.username nonce).toBytes := by
    cases o.announced? <;> rfl
  rw [actions, List.filterMap_append, List.filterMap_append, List.filterMap_append, hchallenges, hdisconnect, hannounce,
    List.append_nil, List.append_nil]
  split <;> rfl

/-- With a mechanism announced, there are two writes. -/
theorem Output.writes_of_announced {o : Output} {m : Mechanism} (h : o.announced? = some m) :
    (o.actions credentials nonce).filterMap Session.writeOf? =
      [(Stanza.streamHeader credentials.host).toBytes, (Stanza.announce m credentials.username nonce).toBytes] := by
  rw [Output.writes, o.opened_of_announced (by rw [h]; nofun), h]
  rfl

/-- What begins the writes of an output, put end to end: nothing, the header, or the header and an announcement that is not of
PLAIN. -/
theorem Output.flatten_of_prefix {o : Output} {writes : List Bytes}
    (h : writes <+: (o.actions credentials nonce).filterMap Session.writeOf?) :
    writes.flatten = [] ∨ writes.flatten = (Stanza.streamHeader credentials.host).toBytes ∨
      ∃ m, (m = .scramSha1 ∨ m = .digestMd5) ∧
        writes.flatten =
          (Stanza.streamHeader credentials.host).toBytes ++ (Stanza.announce m credentials.username nonce).toBytes := by
  cases ha : o.announced? with
  | none =>
    rw [Output.writes, ha, Option.toList_none, List.map_nil, List.append_nil] at h
    split at h
    · rcases List.prefix_cons_iff.mp h with rfl | ⟨more, rfl, hmore⟩
      · exact Or.inl rfl
      · rw [List.prefix_nil.mp hmore]
        exact Or.inr (Or.inl (List.append_nil _))
    · rw [List.prefix_nil.mp h]
      exact Or.inl rfl
  | some m =>
    have hm : m = .scramSha1 ∨ m = .digestMd5 := by
      have hplain := o.never_plain
      rw [ha] at hplain
      cases m <;> simp_all
    rw [Output.writes_of_announced ha] at h
    rcases List.prefix_cons_iff.mp h with rfl | ⟨more, rfl, hmore⟩
    · exact Or.inl rfl
    rcases List.prefix_cons_iff.mp hmore with rfl | ⟨last, rfl, hlast⟩
    · exact Or.inr (Or.inl (List.append_nil _))
    · rw [List.prefix_nil.mp hlast]
      exact Or.inr (Or.inr ⟨m, hm, by simp⟩)

/-! ## What comes of it -/

/-- All bytes that the peer has received in an exchange. -/
def Outcome.received (outcome : Outcome) : Bytes :=
  (outcome.traffic?.map Traffic.received).getD []

namespace Client

/-- A negotiation is over before the connection, with nothing sent, or goes like an exchange over what is read. -/
theorem negotiate_cases (client : Client) (peer : Peer) (s : Session) :
    ((client.negotiate peer s).received = [] ∧
        ∃ e, (client.negotiate peer s).result = .error e ∧ ∀ event, e ≠ .misplaced event) ∨
      ∃ read, read <+: peer.arrivals client.readBufferSize.toNat ∧
        client.Converses peer s {} .connected read (client.negotiate peer s) := by
  unfold negotiate
  split
  · refine Or.inl ⟨rfl, _, rfl, ?_⟩
    nofun
  · split
    · refine Or.inl ⟨rfl, _, rfl, ?_⟩
      nofun
    · exact Or.inr (converses_converse _ s {} .connected)

/-- What arrives in an exchange over some pieces is the pieces. -/
theorem arrivals_pieces (pieces : List Bytes) :
    Session.arrivals ((.connected :: pieces.map Event.received).map .handle) = pieces.flatten := by
  have hpieces : Session.arrivals ((pieces.map Event.received).map .handle) = pieces.flatten := by
    induction pieces with
    | nil => rfl
    | cons piece pieces ih => exact congrArg (piece ++ ·) ih
  exact hpieces

/-- What an exchange of a new session over some pieces has come to, if it succeeds: what was sent, the counters, and the verdicts
on the spans that were taken. -/
theorem Converses.accounted {client : Client} {peer : Peer} {id : String} {pieces : List Bytes} {outcome : Outcome}
    {n : Negotiation}
    (h : client.Converses peer (Session.new id credentials nonce) {} .connected (pieces.map .received) outcome)
    (hok : outcome.result = .ok n) :
    let ops := (.connected :: pieces.map Event.received).map Session.Operation.handle
    outcome.received =
        (Stanza.streamHeader credentials.host).toBytes ++ (Stanza.announce n.mechanism credentials.username nonce).toBytes ∧
      n.stats.bytesWritten = outcome.received.length ∧ n.stats.bytesReceived = pieces.flatten.length ∧
      n.stats.phase = .awaitingChallenge ∧ n.stats.mechanism? = some n.mechanism ∧
      ∃ others, ((Session.new id credentials nonce).ledger ops).map Taking.verdict =
        verdicts [n.mechanism] (n.challenge :: others) none := by
  intro ops
  have hnew : (Session.new id credentials nonce).Shows credentials nonce .empty := Session.shows_new id
  obtain ⟨hopen, hmechanism, hstats, ⟨others, hothers⟩, _, traffic, htraffic, hwrites⟩ :=
    h.negotiated (Session.isOpen_new id credentials nonce) hok
  obtain ⟨o, hshows, hacts⟩ := Session.shows_calls ops hnew
  have hcounted := Session.counted_calls ops hnew
  have haccounts := Session.accounts_calls ops hnew hopen.phase
  obtain ⟨fatal?, hhistory, hfatal⟩ := Session.history_calls ops hnew
  -- The session after the exchange, from here on.
  generalize (Session.new id credentials nonce).calls ops = run at *
  have hannounced : o.announced? = some n.mechanism := hshows.mechanism ▸ hmechanism
  have hout : run.2.flatten = o.actions credentials nonce := hacts.symm
  rw [hout, Output.writes_of_announced hannounced] at hwrites
  have hreceived : outcome.received = (Stanza.streamHeader credentials.host).toBytes ++
      (Stanza.announce n.mechanism credentials.username nonce).toBytes := by
    rw [Outcome.received, htraffic, Option.map_some, Option.getD_some, Traffic.received, hwrites]
    simp
  rw [← hstats, hreceived]
  simp only [Session.stats]
  refine ⟨trivial, ?_, ?_, ?_, hmechanism, others, ?_⟩
  · rw [hcounted.written, Session.bytesOf, hout, Output.writes_of_announced hannounced, List.length_append]
    simp only [Session.new, List.map_cons, List.map_nil, List.sum_cons, List.sum_nil, Nat.zero_add, Nat.add_zero]
  · rw [haccounts.received, arrivals_pieces]
    exact Nat.zero_add _
  · cases hp : run.1.phase with
    | awaitingChallenge => rfl
    | connecting =>
      have hopened := o.opened_of_announced (by simp [hannounced])
      cases hopened.symm.trans (hshows.connecting hp)
    | awaitingFeatures => cases hannounced.symm.trans (hshows.features hp).2
    | closed => exact absurd hp hopen.phase
  · obtain ⟨announced, hlist, hverdicts⟩ := hhistory.spans
    rw [hmechanism] at hlist
    have hlist : [n.mechanism] = announced := hlist
    rw [hverdicts, hothers, hfatal hopen.phase, hlist]

/-- What negotiating with a peer comes to, in three parts. Whatever the peer sends, however it is read and whichever request fails,
for a new session:
1. The peer receives nothing, or the header of the stream, or the header and an announcement of SCRAM-SHA-1 or DIGEST-MD5.
2. If the client ends with a mechanism, a challenge and counters, then the peer has received the header and the announcement of
   that mechanism. The counters count the bytes sent to it and the bytes of the pieces that were read from it, which begin what
   it sends; after them the session awaits challenges. The first span that was taken from these pieces is the features that the
   mechanism was announced for, and the second one decodes to the challenge. No span that was taken was fatal.
3. The client never ends on an event that came at the wrong time, and so never on a challenge without a mechanism. -/
theorem negotiation_of_negotiate (client : Client) (peer : Peer) (id : String) (credentials : Credentials) (nonce : String) :
    let s := Session.new id credentials nonce
    let outcome := client.negotiate peer s
    let header := (Stanza.streamHeader credentials.host).toBytes
    let announcement (m : Mechanism) := (Stanza.announce m credentials.username nonce).toBytes
    (outcome.received = [] ∨ outcome.received = header ∨
        ∃ m, (m = .scramSha1 ∨ m = .digestMd5) ∧ outcome.received = header ++ announcement m) ∧
      (∀ n, outcome.result = .ok n →
        outcome.received = header ++ announcement n.mechanism ∧ n.stats.bytesWritten = outcome.received.length ∧
          n.stats.phase = .awaitingChallenge ∧ n.stats.mechanism? = some n.mechanism ∧
          ∃ pieces, pieces <+: peer.pieces client.readBufferSize.toNat ∧ pieces.flatten <+: peer.segments.flatten ∧
            client.Converses peer s {} .connected (pieces.map .received) outcome ∧
            n.stats.bytesReceived = pieces.flatten.length ∧
            ∃ offer challenge others,
              s.ledger ((.connected :: pieces.map Event.received).map .handle) = offer :: challenge :: others ∧
                (offer.kind = .features ∧ offer.verdict = .ok (.announce n.mechanism)) ∧
                (challenge.kind = .challenge ∧ Challenge.decode challenge.span = .ok n.challenge) ∧
                ∀ taking ∈ offer :: challenge :: others, taking.isFatal = false) ∧
      ∀ event, outcome.result ≠ .error (.misplaced event) := by
  intro s outcome header announcement
  have hnew : s.Shows credentials nonce .empty := Session.shows_new id
  have hopen : s.IsOpen := Session.isOpen_new id credentials nonce
  rcases client.negotiate_cases peer s with ⟨hreceived, e, he, hne⟩ | ⟨read, hread, hconverses⟩
  · have he : outcome.result = .error e := he
    refine ⟨Or.inl hreceived, fun n hok => ?_, fun event hevent => ?_⟩
    · cases he.symm.trans hok
    · exact hne event (Except.error.inj (he.symm.trans hevent))
  · change Converses client peer s {} .connected read outcome at hconverses
    refine ⟨?_, fun n hok => ?_, fun event => ?_⟩
    · obtain ⟨traffic, htraffic, hwrites⟩ := hconverses.writes hopen
      obtain ⟨o, _, hacts⟩ := Session.shows_calls ((.connected :: read).map .handle) hnew
      have hout : (s.calls ((.connected :: read).map .handle)).2.flatten = o.actions credentials nonce := hacts.symm
      have hprefix : traffic.writes <+: (o.actions credentials nonce).filterMap Session.writeOf? := hout ▸ hwrites
      have hreceived : outcome.received = traffic.writes.flatten := by
        rw [Outcome.received, htraffic]
        rfl
      rw [hreceived]
      exact Output.flatten_of_prefix hprefix
    · obtain ⟨_, _, _, _, hfailed, _⟩ := hconverses.negotiated hopen hok
      obtain ⟨pieces, hpieces, rfl⟩ := Peer.pieces_of_prefix hread fun fault hmem => hfailed fault (List.mem_cons_of_mem _ hmem)
      obtain ⟨hreceived, hwritten, hread, hphase, hmechanism, others, hverdicts⟩ := hconverses.accounted hok
      have hbytes : pieces.flatten <+: peer.segments.flatten := by
        rw [← peer.flatten_pieces]
        obtain ⟨more, hmore⟩ := hpieces
        exact ⟨more.flatten, by rw [← hmore, List.flatten_append]⟩
      exact ⟨hreceived, hwritten, hphase, hmechanism, pieces, hpieces, hbytes, hconverses, hread,
        takings_of_verdicts hverdicts⟩
    · exact hconverses.ne_misplaced hnew hopen (Or.inl ⟨rfl, rfl⟩)
        fun hmem => peer.connected_not_mem_arrivals _ (hread.subset hmem)

end Client

/-! ## Bytes that are read at once -/

/-- A challenge with the payload `a`. -/
theorem answer_challenge :
    SpanKind.challenge.answer (Utf8.ofString "<challenge>YQ==</challenge>") = .ok (.pass ⟨[97]⟩) := by
  have hwritten : Xml.Written [⟨"challenge", [], "YQ==", []⟩] "<challenge>YQ==</challenge>".toList :=
    .element (by decide) .nil (by decide) .nil .nil
  have hpayload : Base64.decode (Utf8.ofString "YQ==") = .ok [97] := Base64.decode_encode [97]
  exact SpanKind.answer_challenge_of_written hwritten (by decide) hpayload

/-- A failure without a condition. -/
theorem answer_plainFailure :
    SpanKind.failure.answer (Utf8.ofString "<failure></failure>") = .error (.rejected "undefined-condition") := by
  have hwritten : Xml.Written [⟨"failure", [], "", []⟩] "<failure></failure>".toList :=
    .element (by decide) .nil (by decide) .nil .nil
  have hcondition : conditionOf ⟨"failure", [], "", []⟩ = "undefined-condition" := by decide +kernel
  exact hcondition ▸ SpanKind.answer_failure_of_written hwritten

/-- A client gets its connection to a peer, reads all of its bytes at once, and then the stream ends. -/
structure Client.ReadsAtOnce (client : Client) (peer : Peer) (bytes : Bytes) : Prop where
  connects : client.Connects peer
  segments : peer.segments = [bytes]
  ending : peer.ending = .close
  writes : peer.writeFailure? = none
  ne_nil : bytes ≠ []
  length_le : bytes.length ≤ client.readBufferSize.toNat

namespace Client.ReadsAtOnce

variable {client : Client} {peer : Peer} {bytes : Bytes}

theorem arrivals (h : client.ReadsAtOnce peer bytes) :
    peer.arrivals client.readBufferSize.toNat = [.received bytes, .failed .closedByPeer] := by
  rw [Peer.arrivals, h.segments, h.ending, List.flatMap_singleton, chunks_of_length_le h.ne_nil h.length_le]
  rfl

/-- The second turn of such a negotiation comes to what the bytes are read as. -/
theorem exists_leadsTo (h : client.ReadsAtOnce peer bytes) (id : String) (credentials : Credentials) (nonce : String) :
    ∃ turn, Turn.LeadsTo peer (client.firstTurn peer (Session.new id credentials nonce)) [.connected] turn ∧
      turn.session.Underway ∧ turn.run.Follows turn.session (Phase.awaitingFeatures.read bytes) := by
  have hturn := leadsTo_second h.arrivals h.writes id credentials nonce
  exact ⟨_, hturn, hturn.underway (Session.underway_new id credentials nonce), Session.follows_opened id credentials nonce bytes⟩

end Client.ReadsAtOnce

/-- Features that offer DIGEST-MD5, and a challenge right behind them. -/
def offering : Bytes :=
  Utf8.ofString "<stream:features><mechanism>DIGEST-MD5</mechanism></stream:features><challenge>YQ==</challenge>"

namespace Phase

/-- Both stanzas are answered. -/
theorem read_offering :
    awaitingFeatures.read offering = ⟨[.announce .digestMd5, .pass ⟨[97]⟩], none, .awaitingChallenge, []⟩ := by
  have hfeatures : awaitingFeatures.firstSpan? offering =
      some ⟨.features, Utf8.ofString "<stream:features><mechanism>DIGEST-MD5</mechanism></stream:features>",
        Utf8.ofString "<challenge>YQ==</challenge>"⟩ := by decide +kernel
  have hchallenge : awaitingChallenge.firstSpan? (Utf8.ofString "<challenge>YQ==</challenge>") =
      some ⟨.challenge, Utf8.ofString "<challenge>YQ==</challenge>", []⟩ := by decide +kernel
  rw [read_of_ok hfeatures Session.answer_features, read_of_ok hchallenge answer_challenge, read_of_none rfl]
  rfl

/-- A failure in the place of the features is fatal. -/
theorem read_plainFailure :
    awaitingFeatures.read (Utf8.ofString "<failure></failure>") = ⟨[], some (.rejected "undefined-condition"), .closed, []⟩ := by
  have hspan : awaitingFeatures.firstSpan? (Utf8.ofString "<failure></failure>") =
      some ⟨.failure, Utf8.ofString "<failure></failure>", []⟩ := by decide +kernel
  exact read_of_error hspan answer_plainFailure

end Phase

namespace Client

/-- A negotiation with a peer that offers a mechanism and sends a challenge comes to both. -/
theorem ReadsAtOnce.negotiate_offering {client : Client} {peer : Peer} (h : client.ReadsAtOnce peer offering) (id : String)
    (credentials : Credentials) (nonce : String) :
    ∃ stats, (client.negotiate peer (Session.new id credentials nonce)).result = .ok ⟨.digestMd5, ⟨[97]⟩, stats⟩ := by
  obtain ⟨turn, hturn, hu, hfollows⟩ := h.exists_leadsTo id credentials nonce
  rw [Phase.read_offering] at hfollows
  have hf := Turn.flushed_of_ok hu h.writes hfollows.error
  obtain ⟨m, hm, houtcome⟩ := Turn.outcome_of_challenge client hu hfollows.error hfollows.challenges (congrArg Prod.snd hf)
  cases hm.symm.trans hfollows.mechanism
  exact ⟨_, by rw [negotiate_of_connects h.connects, hturn.outcome, houtcome]⟩

/-- Such a negotiation succeeds, and the peer has received the header of the stream and the announcement of its mechanism. -/
theorem negotiation_of_negotiate_offering :
    let client : Client := ⟨"localhost:5222", 10, 30, 4096⟩
    let peer : Peer := { segments := [offering], ending := .close }
    let outcome := client.negotiate peer (Session.new "id" ⟨"host", "user", "password"⟩ "nonce")
    ∃ stats, outcome.result = .ok ⟨.digestMd5, ⟨[97]⟩, stats⟩ ∧
      outcome.received = (Stanza.streamHeader "host").toBytes ++ (Stanza.announce .digestMd5 "user" "nonce").toBytes ∧
      stats.bytesWritten = outcome.received.length := by
  intro client peer outcome
  have hreads : client.ReadsAtOnce peer offering := ⟨by decide, rfl, rfl, rfl, by decide +kernel, by decide +kernel⟩
  obtain ⟨stats, hok⟩ := hreads.negotiate_offering "id" ⟨"host", "user", "password"⟩ "nonce"
  obtain ⟨hreceived, hwritten, _⟩ := (negotiation_of_negotiate client peer "id" _ "nonce").2.1 _ hok
  exact ⟨stats, hok, hreceived, hwritten⟩

end Client

end StreamAuth
