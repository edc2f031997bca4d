import StreamAuth.Proofs.Conversation
import StreamAuth.Proofs.Shutdown

/-!
# How a peer's bytes are cut

A peer sends its bytes in segments, and a client reads them with a buffer of some size. The session takes at most one step for each
byte, one for the connection and one for the end of the stream. What comes of a framed stream does not depend on the cuts, if
nothing follows its first challenge: the client is told what is to be told of a reading of all bytes at once (`Reading.told`).
-/

namespace StreamAuth

open Session (watched)

/-! ## How long it takes -/

theorem length_chunks_le (size : Nat) (bytes : Bytes) : (chunks size bytes).length ≤ bytes.length := by
  induction bytes using chunks.induct size with
  | case1 =>
    rw [chunks, dif_pos rfl]
    exact Nat.le_refl 0
  | case2 bytes h ih =>
    have hpos := List.length_pos_iff.mpr h
    rw [chunks, dif_neg h, List.length_cons]
    rw [List.length_drop] at ih
    omega

/-- The failure that a client meets when a peer has sent all it has to send. -/
def Ending.fault? : Ending → Option TransportFault
  | close => some .closedByPeer
  | reset => some (.read ⟨104⟩)
  | silent | refuse | hang => none

namespace Peer

/-- There are no more pieces than bytes. -/
theorem length_pieces_le (p : Peer) (size : Nat) : (p.pieces size).length ≤ p.segments.flatten.length := by
  rw [pieces]
  induction p.segments with
  | nil => exact Nat.le_refl 0
  | cons segment segments ih =>
    rw [List.flatMap_cons, List.length_append, List.flatten_cons, List.length_append]
    exact Nat.add_le_add (length_chunks_le size segment) ih

/-- What is read is the pieces, and then the failure with which the stream ends. -/
theorem arrivals_eq (p : Peer) (size : Nat) :
    p.arrivals size = (p.pieces size).map .received ++ p.ending.fault?.toList.map .failed := by
  unfold arrivals
  cases p.ending <;> rfl

theorem length_arrivals_le (p : Peer) (size : Nat) : (p.arrivals size).length ≤ p.segments.flatten.length + 1 := by
  have hpieces := p.length_pieces_le size
  have hfault : (p.ending.fault?.toList.map Event.failed).length ≤ 1 := by cases p.ending <;> decide
  rw [arrivals_eq, List.length_append, List.length_map]
  omega

end Peer

/-! ## What a client is told -/

/-- What a client is told of a reading, with the end that the peer puts to it: the first challenge, with the mechanism; else the
error that ended the reading; else the end. -/
def Reading.told (readTimeout : UInt64) (ending : Ending) (mechanism? : Option Mechanism) (r : Reading) :
    Except Error (Mechanism × Challenge) :=
  match r.answers.filterMap Answer.challenge?, r.answers.foldl Answer.mechanismAfter mechanism?, r.error? with
  | c :: _, some m, _ => .ok (m, c)
  | _ :: _, none, _ => .error (.misplaced .challenge)
  | [], _, some e => .error e
  | [], _, none =>
    match ending.fault? with
    | some fault => .error (.transport fault)
    | none => .error (.timeout (.data readTimeout r.phase))

/-- What a client is told at the end of an exchange, without the counters. -/
def Outcome.told (outcome : Outcome) : Except Error (Mechanism × Challenge) :=
  outcome.result.map fun n => (n.mechanism, n.challenge)

/-- Answers without a challenge in front of a reading change the mechanism, and nothing else of what is told. -/
theorem Reading.told_following {answers : List Answer} (h : answers.filterMap Answer.challenge? = []) (readTimeout : UInt64)
    (ending : Ending) (mechanism? : Option Mechanism) (r : Reading) :
    (r.following answers).told readTimeout ending mechanism? =
      r.told readTimeout ending (answers.foldl Answer.mechanismAfter mechanism?) := by
  simp only [Reading.told, answers_following, error?_following, phase_following, List.filterMap_append, h, List.nil_append,
    List.foldl_append]

namespace Traffic

@[simp] theorem received_sending (t : Traffic) (sent : List Bytes) :
    (t.sending sent).received = t.received ++ sent.flatten := by
  rw [received, writes_sending, List.flatten_append]
  rfl

@[simp] theorem received_shutdown (t : Traffic) (peer : Peer) : (t.shutdown peer).1.received = t.received := by
  rw [shutdown, received, writes_shutdown]
  rfl

end Traffic

/-! ## An exchange tells of a reading -/

/-- If no write of a turn fails, the peer receives all that the turn writes, and the turn fails only on an error of the session. -/
theorem Turn.flushed_of_written {client : Client} {peer : Peer} (turn : Turn) (h : turn.session.Underway)
    (hwrites : ∀ bytes, .refused bytes ∉ (client.outcome peer turn).requests) :
    (turn.run.error? = none → (turn.flushed peer).2 = .ok ()) ∧
      (turn.flushed peer).1.received = turn.traffic.received ++ turn.run.outbox.pending.flatten := by
  rcases flushed_cases h peer with ⟨sent, bytes, cause, _, hf⟩ | ⟨_, hf⟩ | ⟨⟨e, he⟩, hf⟩
  · obtain ⟨e, houtcome⟩ := outcome_of_failure client peer h (Or.inr ⟨cause, congrArg Prod.snd hf⟩)
    refine absurd ?_ (hwrites bytes)
    rw [houtcome, hf]
    exact List.mem_append_right _ List.mem_cons_self
  · rw [hf]
    exact ⟨fun _ => rfl, Traffic.received_sending _ _⟩
  · rw [hf, Traffic.received_shutdown, Traffic.received_sending]
    exact ⟨fun hn => (by cases hn.symm.trans he), rfl⟩

/-- An exchange of a session tells of a reading: the client is told what is to be told of it, and the peer receives what its answers
write. -/
structure Outcome.Tells (client : Client) (peer : Peer) (s : Session) (traffic : Traffic) (r : Reading) (outcome : Outcome) : Prop where
  told : outcome.told = r.told client.readTimeout peer.ending s.mechanism?
  received : outcome.received = traffic.received ++ (r.answers.filterMap (Answer.write? s.credentials s.nonce)).flatten

namespace Turn

variable {client : Client} {peer : Peer} {r : Reading}

/-- An error without a challenge before it is told. -/
theorem tells_of_error (turn : Turn) (h : turn.session.Underway) (hr : turn.run.Follows turn.session r)
    (hwrites : ∀ bytes, .refused bytes ∉ (client.outcome peer turn).requests) (hc : r.answers.filterMap Answer.challenge? = [])
    {e : Error} (he : r.error? = some e) : (client.outcome peer turn).Tells client peer turn.session turn.traffic r := by
  obtain ⟨_, hreceived⟩ := turn.flushed_of_written h hwrites
  rw [hr.outbox] at hreceived
  rw [outcome_of_told h (hr.error.trans he) (Or.inl (hr.challenges.trans hc))]
  refine ⟨?_, hreceived⟩
  simp only [Reading.told, hc, he]
  rfl

/-- The first challenge is told, and all that is read behind it changes nothing. -/
theorem tells_of_challenge (turn : Turn) (h : turn.session.Underway) (hr : turn.run.Follows turn.session r)
    (hwrites : ∀ bytes, .refused bytes ∉ (client.outcome peer turn).requests) {c : Challenge} {cs : List Challenge}
    (hc : r.answers.filterMap Answer.challenge? = c :: cs) (he : r.error? = none) {rest : Reading} {passes : List Challenge}
    (hrest : rest.answers = passes.map .pass) :
    (client.outcome peer turn).Tells client peer turn.session turn.traffic (rest.following r.answers) := by
  have he' : turn.run.error? = none := hr.error.trans he
  obtain ⟨hflushed, hreceived⟩ := turn.flushed_of_written h hwrites
  rw [hr.outbox] at hreceived
  obtain ⟨m, hm, houtcome⟩ := outcome_of_challenge client h he' (hr.challenges.trans hc) (hflushed he')
  rw [hr.mechanism] at hm
  rw [houtcome]
  refine ⟨?_, ?_⟩
  · simp only [Reading.told, Reading.answers_following, hrest, List.filterMap_append, List.foldl_append, hc,
      Answer.foldl_mechanismAfter_pass, hm]
    rfl
  · rw [Reading.answers_following, hrest, List.filterMap_append, Answer.filterMap_write?_pass, List.append_nil]
    exact hreceived

/-- With neither, the exchange tells of what is read behind. -/
theorem tells_of_quiet (turn : Turn) (h : turn.session.Underway) (hr : turn.run.Follows turn.session r)
    (hwrites : ∀ bytes, .refused bytes ∉ (client.outcome peer turn).requests) (hc : r.answers.filterMap Answer.challenge? = [])
    (he : r.error? = none) :
    ∃ traffic, client.outcome peer turn = client.proceed peer turn.run.session traffic turn.later ∧
      ∀ (rest : Reading) (outcome : Outcome), outcome.Tells client peer turn.run.session traffic rest →
        outcome.Tells client peer turn.session turn.traffic (rest.following r.answers) := by
  have he' : turn.run.error? = none := hr.error.trans he
  obtain ⟨hflushed, hreceived⟩ := turn.flushed_of_written h hwrites
  rw [hr.outbox] at hreceived
  refine ⟨_, outcome_of_quiet h he' (hr.challenges.trans hc) (hflushed he'), fun rest outcome htells => ⟨?_, ?_⟩⟩
  · rw [Reading.told_following hc, ← hr.mechanism, htells.told]
  · rw [Reading.answers_following, List.filterMap_append, List.flatten_append, ← List.append_assoc, ← hr.credentials, ← hr.nonce,
      htells.received, hreceived, hr.credentials, hr.nonce]

end Turn

namespace Client

variable {client : Client} {peer : Peer}

/-- At the end of the pieces, nothing more is read, and the end is told. -/
theorem tells_of_ending {s : Session} (h : s.Underway) (traffic : Traffic)
    (hwrites : ∀ bytes, .refused bytes ∉ (client.proceed peer s traffic (peer.ending.fault?.toList.map .failed)).requests) :
    (client.proceed peer s traffic (peer.ending.fault?.toList.map .failed)).Tells client peer s traffic
      ⟨[], none, s.phase, s.buffer.bytes⟩ := by
  cases hfault : peer.ending.fault? with
  | none =>
    refine ⟨?_, (Traffic.received_shutdown traffic peer).trans (List.append_nil _).symm⟩
    simp only [Reading.told, List.filterMap_nil, hfault]
    rfl
  | some fault =>
    rw [hfault] at hwrites
    let turn : Turn := ⟨s, traffic, .failed fault, []⟩
    have hu : turn.session.Underway := h
    have htold : client.outcome peer turn = _ := Turn.outcome_of_told hu rfl (Or.inl rfl)
    obtain ⟨_, hreceived⟩ := turn.flushed_of_written hu hwrites
    rw [show client.proceed peer s traffic ((some fault).toList.map .failed) = _ from htold]
    refine ⟨?_, hreceived⟩
    simp only [Reading.told, List.filterMap_nil, hfault]
    rfl

/-- An exchange over pieces that the session waits for tells of the reading of the pieces, if that ends on no error behind a
challenge, and no write fails. -/
theorem tells_of_pieces (pieces : List Bytes) {s : Session} (h : s.Underway) (hw : s.Waiting) (traffic : Traffic) {r : Reading}
    (hr : s.phase.readPieces s.buffer.bytes pieces = r) (hfate : r.answers.filterMap Answer.challenge? = [] ∨ r.error? = none)
    (hwrites : ∀ bytes, .refused bytes ∉
      (client.proceed peer s traffic (pieces.map .received ++ peer.ending.fault?.toList.map .failed)).requests) :
    (client.proceed peer s traffic (pieces.map .received ++ peer.ending.fault?.toList.map .failed)).Tells client peer s traffic
      r := by
  induction pieces generalizing s traffic r with
  | nil => exact hr ▸ tells_of_ending h traffic hwrites
  | cons piece pieces ih =>
    let turn : Turn := ⟨s, traffic, .received piece, pieces.map .received ++ peer.ending.fault?.toList.map .failed⟩
    have hfollows : turn.run.Follows s (s.phase.read (s.buffer.bytes ++ piece)) := hw.follows piece
    have horder := s.phase.answers_read (s.buffer.bytes ++ piece)
    cases he : (s.phase.read (s.buffer.bytes ++ piece)).error? with
    | some e =>
      rw [Phase.readPieces_cons_of_error he] at hr
      cases hr
      exact turn.tells_of_error h hfollows hwrites (hfate.resolve_right (by rw [he]; nofun)) he
    | none =>
      rw [Phase.readPieces_cons_of_ok he] at hr
      cases hr
      cases hc : (s.phase.read (s.buffer.bytes ++ piece)).answers.filterMap Answer.challenge? with
      | cons c cs =>
        -- Behind a challenge, challenges are awaited, and nothing is answered but challenges.
        have hphase : (s.phase.read (s.buffer.bytes ++ piece)).phase = .awaitingChallenge := by
          rcases horder with hnil | ⟨_, _, _, _, hphase⟩
          · rw [hnil] at hc
            cases hc
          · exact hphase he
        obtain ⟨passes, hpasses⟩ :=
          Phase.answers_readPieces_awaitingChallenge pieces (s.phase.read (s.buffer.bytes ++ piece)).unread
        exact turn.tells_of_challenge h hfollows hwrites hc he (hphase ▸ hpasses)
      | nil =>
        obtain ⟨traffic', houtcome, htells⟩ := turn.tells_of_quiet h hfollows hwrites hc he
        have hnext : turn.run.session.Underway := (Session.Underway.advance h (hfollows.error.trans he)).1
        rw [show client.proceed peer s traffic _ = client.outcome peer turn from rfl, houtcome] at hwrites ⊢
        rw [Reading.answers_following, List.filterMap_append, hc] at hfate
        refine htells _ _ (ih hnext hfollows.waiting traffic' ?_ hfate hwrites)
        rw [hfollows.phase he, hfollows.buffer he]

end Client

/-! ## Streams that end at their first challenge -/

/-- The stanzas behind the first one of a kind. -/
def behindFirst (kind : SpanKind) (xs : List Arrival) : List Arrival :=
  (xs.dropWhile fun x => x.kind ≠ kind).drop 1

/-- The stanzas behind the first challenge behind the first features. -/
def FramedStream.afterChallenge (stream : FramedStream) : List Arrival :=
  behindFirst .challenge (behindFirst .features stream.arrivals)

theorem behindFirst_cons_of_eq {kind : SpanKind} {x : Arrival} (h : x.kind = kind) (xs : List Arrival) :
    behindFirst kind (x :: xs) = xs := by
  simp [behindFirst, h]

theorem behindFirst_cons_of_ne {kind : SpanKind} {x : Arrival} (h : x.kind ≠ kind) (xs : List Arrival) :
    behindFirst kind (x :: xs) = behindFirst kind xs := by
  simp [behindFirst, h]

namespace Conversation

/-- The stanzas behind the first challenge that a conversation can hear. -/
def behindChallenge (c : Conversation) (xs : List Arrival) : List Arrival :=
  match c.mechanism? with
  | none => behindFirst .challenge (behindFirst .features xs)
  | some _ => behindFirst .challenge xs

/-- A conversation that nothing follows its first challenge in has no challenge or no error. -/
theorem challenges_or_error_eq_nil (credentials : Credentials) (nonce : String) (xs : List Arrival) {c : Conversation}
    (he : c.error? = none) (hc : c.challenges = []) (hb : c.behindChallenge xs = []) :
    (xs.foldl (hear credentials nonce) c).challenges = [] ∨ (xs.foldl (hear credentials nonce) c).error? = none := by
  induction xs generalizing c with
  | nil => exact Or.inr he
  | cons x xs ih =>
    rw [List.foldl_cons]
    by_cases hk : x.kind ∈ watched c.phase
    · cases ha : x.kind.answer x.stanza with
      | error e =>
        rw [hear_of_error he hk ha, foldl_hear_of_error rfl]
        exact Or.inl hc
      | ok a =>
        have hheard := (hears_iff he).mpr hk
        rw [hear_of_ok he hk ha]
        rcases SpanKind.answer_ok ha with ⟨hkind, m, _, rfl⟩ | ⟨hkind, challenge, rfl⟩
        · -- Features are heard while there is no mechanism, and challenges after them.
          have hm : c.mechanism? = none := by
            rw [hkind] at hheard
            simpa [hears] using hheard
          refine ih he hc ?_
          rw [behindChallenge, hm] at hb
          simp only [behindFirst_cons_of_eq hkind] at hb
          exact hb
        · -- A challenge is heard with a mechanism, and then there is nothing behind it.
          obtain ⟨m, hm⟩ : ∃ m, c.mechanism? = some m := by
            rw [hkind] at hheard
            exact Option.isSome_iff_exists.mp hheard
          rw [behindChallenge, hm] at hb
          simp only [behindFirst_cons_of_eq hkind] at hb
          rw [hb]
          exact Or.inr he
    · have hheard := mt (hears_iff he).mp hk
      rw [hear_of_not_heard he hk]
      refine ih he hc ?_
      rw [behindChallenge] at hb ⊢
      cases hm : c.mechanism? with
      | none =>
        have hkind : x.kind ≠ .features := fun hkind => hheard (by rw [hkind, hears, hm]; rfl)
        simpa only [hm, behindFirst_cons_of_ne hkind] using hb
      | some m =>
        have hkind : x.kind ≠ .challenge := fun hkind => hheard (by rw [hkind, hears, hm]; rfl)
        simpa only [hm, behindFirst_cons_of_ne hkind] using hb

end Conversation

namespace Client

variable {client : Client} {peer : Peer}

/-- A framed stream that ends at its first challenge is read with no error behind a challenge. -/
theorem challenges_or_error_of_read {stream : FramedStream} (hafter : stream.afterChallenge = []) :
    (Phase.awaitingFeatures.read stream.bytes).answers.filterMap Answer.challenge? = [] ∨
      (Phase.awaitingFeatures.read stream.bytes).error? = none := by
  obtain ⟨_, hmatches⟩ := Conversation.matches_start ⟨"", "", ""⟩ "" stream
  have hfate := Conversation.challenges_or_error_eq_nil ⟨"", "", ""⟩ "" stream.arrivals
    (c := .start ⟨"", "", ""⟩ stream.lead) rfl rfl hafter
  rwa [hmatches.challenges, hmatches.error] at hfate

/-- A negotiation in which no write fails sends the header of the stream, and goes on with what is read. -/
theorem negotiate_proceeds (hconnects : client.Connects peer) (id : String) (credentials : Credentials) (nonce : String)
    (hwrites : ∀ bytes, .refused bytes ∉ (client.negotiate peer (Session.new id credentials nonce)).requests) :
    ∃ traffic, traffic.received = (Stanza.streamHeader credentials.host).toBytes ∧
      client.negotiate peer (Session.new id credentials nonce) =
        client.proceed peer (Session.new id credentials nonce).openStream.1 traffic
          (peer.arrivals client.readBufferSize.toNat) := by
  have hu := Session.underway_new id credentials nonce
  rw [negotiate_of_connects hconnects] at hwrites ⊢
  obtain ⟨hflushed, hreceived⟩ := (client.firstTurn peer (Session.new id credentials nonce)).flushed_of_written hu hwrites
  have hheader : ([] : Bytes) ++ [(Stanza.streamHeader credentials.host).toBytes].flatten =
      (Stanza.streamHeader credentials.host).toBytes := by simp
  exact ⟨_, hreceived.trans hheader, Turn.outcome_of_quiet hu rfl rfl (hflushed rfl)⟩

/-- What a client is told of a framed stream that ends at its first challenge, and what the peer receives, is what the stream comes
to when all of it is read at once. -/
theorem told_of_negotiate (hconnects : client.Connects peer) (id : String) (credentials : Credentials) (nonce : String)
    {stream : FramedStream} (hafter : stream.afterChallenge = []) (hsegments : peer.segments.flatten = stream.bytes)
    (hwrites : ∀ bytes, .refused bytes ∉ (client.negotiate peer (Session.new id credentials nonce)).requests) :
    (client.negotiate peer (Session.new id credentials nonce)).told =
        (Phase.awaitingFeatures.read stream.bytes).told client.readTimeout peer.ending none ∧
      (client.negotiate peer (Session.new id credentials nonce)).received = (Stanza.streamHeader credentials.host).toBytes ++
        ((Phase.awaitingFeatures.read stream.bytes).answers.filterMap (Answer.write? credentials nonce)).flatten := by
  obtain ⟨traffic, hheader, houtcome⟩ := negotiate_proceeds hconnects id credentials nonce hwrites
  rw [houtcome, peer.arrivals_eq] at hwrites ⊢
  -- All pieces together are the stream, which is not ambiguous.
  have hread : Phase.awaitingFeatures.readPieces [] (peer.pieces client.readBufferSize.toNat) =
      Phase.awaitingFeatures.read stream.bytes :=
    Phase.readPieces_eq_read_of_flatten ((peer.flatten_pieces _).trans hsegments)
      (Conversation.matches_start credentials nonce stream).1
  have hopened : (Session.new id credentials nonce).openStream.1.Underway :=
    (Session.Underway.advance (Session.underway_new id credentials nonce)
      (show ((Session.new id credentials nonce).advance .connected).error? = none from rfl)).1
  have htells := tells_of_pieces _ hopened (Or.inl rfl) traffic hread (challenges_or_error_of_read hafter) hwrites
  exact ⟨htells.told, htells.received.trans (by rw [hheader]; rfl)⟩

/-- How a negotiation depends on how the peer's bytes are cut, in two parts.
1. With a connection, it comes to a last turn in at most two steps of the session more than the peer sends bytes. Without one, it is
   over at once.
2. Let the peer send a framed stream in which no stanza follows the first challenge behind the first features. Then every other peer
   that sends the stream, in any segments and with the same end, and every other size of the buffer come to the same, as long as no
   write fails: the client is told the same mechanism and challenge, or the same error, and the peer receives the same bytes. -/
theorem segments_of_negotiate (client : Client) (peer : Peer) (id : String) (credentials : Credentials) (nonce : String) :
    let s := Session.new id credentials nonce
    let outcome := client.negotiate peer s
    ((client.Connects peer → ∃ handled last,
          Turn.LeadsTo peer (client.firstTurn peer s) handled last ∧
            client.Converses peer last.session last.traffic last.event [] outcome ∧
            handled.length + 1 ≤ peer.segments.flatten.length + 2) ∧
        (¬client.Connects peer → outcome.requests = [] ∧ ∃ e, outcome.result = .error e)) ∧
      ∀ stream : FramedStream, stream.afterChallenge = [] →
        peer.segments.flatten = stream.bytes → client.Connects peer → (∀ bytes, .refused bytes ∉ outcome.requests) →
          ∀ (other : Peer) (size : UInt64) (id' : String),
            let client' := { client with readBufferSize := size }
            let outcome' := client'.negotiate other (Session.new id' credentials nonce)
            other.segments.flatten = stream.bytes → other.ending = peer.ending → client'.Connects other →
              (∀ bytes, .refused bytes ∉ outcome'.requests) →
                outcome'.told = outcome.told ∧ outcome'.received = outcome.received := by
  intro s outcome
  refine ⟨⟨fun hconnects => ?_, fun hconnects => negotiate_of_not_connects hconnects s⟩, ?_⟩
  · obtain ⟨handled, last, hlast, hnone⟩ :=
      Turn.exists_last peer (peer.arrivals client.readBufferSize.toNat) s {} .connected
    refine ⟨handled, last, hlast, ?_, ?_⟩
    · rw [show outcome = client.outcome peer last from (negotiate_of_connects hconnects s).trans hlast.outcome]
      exact Turn.converses_of_last hnone
    · have hevents := congrArg List.length hlast.events
      have hbytes := peer.length_arrivals_le client.readBufferSize.toNat
      simp only [List.length_cons, List.length_append] at hevents
      omega
  · intro stream hafter hsegments hconnects hwrites other size id' client' outcome' hsegments' hending hconnects' hwrites'
    obtain ⟨htold, hreceived⟩ := told_of_negotiate hconnects id credentials nonce hafter hsegments hwrites
    obtain ⟨htold', hreceived'⟩ := told_of_negotiate hconnects' id' credentials nonce hafter hsegments' hwrites'
    refine ⟨?_, hreceived'.trans hreceived.symm⟩
    rw [show outcome'.told = _ from htold', show outcome.told = _ from htold, hending]

/-- A stream with a failure in it, in three segments that are read as they come, and in one that is read byte by byte. -/
theorem segments_of_negotiate_refusal :
    let client : Client := ⟨"localhost:5222", 10, 30, 4096⟩
    let peer : Peer :=
      { segments := [Utf8.ofString "<challenge>YQ==</chall", [], Utf8.ofString "enge>\n<failure></failure><stream:error>"]
        ending := .silent }
    let other : Peer := { segments := [refusal.bytes], ending := .silent }
    let s := Session.new "id" ⟨"host", "user", "password"⟩ "nonce"
    let slow := { client with readBufferSize := 1 }
    (slow.negotiate other s).told = (client.negotiate peer s).told ∧
      (slow.negotiate other s).received = (client.negotiate peer s).received := by
  intro client peer other s slow
  have hbytes : peer.segments.flatten = refusal.bytes := by decide +kernel
  exact (segments_of_negotiate client peer "id" _ "nonce").2 refusal rfl hbytes (by decide)
    (refused_not_mem_negotiate rfl "id" _ "nonce") other 1 "id" (List.append_nil _) rfl (by decide)
    (refused_not_mem_negotiate rfl "id" _ "nonce")

end Client

end StreamAuth
