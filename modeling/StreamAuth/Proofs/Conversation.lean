import StreamAuth.Proofs.Delivery
import StreamAuth.Proofs.Stanzas

/-!
# Conversations

What a session makes of a framed stream can be said without any bytes being searched. A `Conversation` hears one stanza after
the other: features until some have been accepted, challenges after that, and failures and stream errors at any time, until one
of them is fatal. A driver sees the same of the session, in whatever pieces the stream arrives.
-/

namespace StreamAuth

open Session (watched)

/-- What has come of the stanzas that were heard. -/
structure Conversation where
  /-- The mechanism that was announced, once features have been accepted. -/
  mechanism? : Option Mechanism := none
  /-- What was written. -/
  writes : List Bytes
  /-- The challenges that were handed out. -/
  challenges : List Challenge := []
  /-- The error of the stanza that ended the conversation. -/
  error? : Option Error := none
  /-- All that has come since the last stanza that was answered. -/
  unread : Bytes

namespace Conversation

/-- The conversation before the first stanza. -/
def start (credentials : Credentials) (lead : Bytes) : Conversation :=
  { writes := [(Stanza.streamHeader credentials.host).toBytes], unread := lead }

/-- Whether stanzas of a kind are heard: features until some have been accepted, challenges after that, failures and stream
errors at any time. -/
def hears (c : Conversation) : SpanKind → Bool
  | .features => c.mechanism?.isNone
  | .challenge => c.mechanism?.isSome
  | .failure | .streamError => true

/-- The conversation after a stanza was answered, with a gap behind it. -/
def answer (credentials : Credentials) (nonce : String) (c : Conversation) (gap : Bytes) : Answer → Conversation
  | .announce m =>
    { c with
      mechanism? := some m
      writes := c.writes ++ [(Stanza.announce m credentials.username nonce).toBytes]
      unread := gap }
  | .pass challenge => { c with challenges := c.challenges ++ [challenge], unread := gap }

/-- The conversation after one stanza more, unless one before it was fatal. -/
def hear (credentials : Credentials) (nonce : String) (c : Conversation) (x : Arrival) : Conversation :=
  match c.error? with
  | some _ => c
  | none =>
    if c.hears x.kind then
      match x.kind.answer x.stanza with
      | .error e => { c with error? := some e }
      | .ok a => c.answer credentials nonce x.gap a
    else { c with unread := c.unread ++ x.stanza ++ x.gap }

/-- What is waited for. -/
def phase (c : Conversation) : Phase :=
  match c.error?, c.mechanism? with
  | some _, _ => .closed
  | none, none => .awaitingFeatures
  | none, some _ => .awaitingChallenge

/-- What is seen of the conversation at the end of a stream. The connection is ended on an error, and nothing is kept then. -/
def observation (c : Conversation) (tail : Bytes) : Observation :=
  match c.error? with
  | some e => ⟨c.writes, c.challenges, some e, 1, .closed, []⟩
  | none => ⟨c.writes, c.challenges, none, 0, c.phase, c.unread ++ tail⟩

variable {credentials : Credentials} {nonce : String}

/-! ## Hearing a stanza -/

theorem hears_iff {c : Conversation} (he : c.error? = none) {kind : SpanKind} : c.hears kind ↔ kind ∈ watched c.phase := by
  unfold phase
  rw [he]
  cases hm : c.mechanism? <;> cases kind <;> simp [hears, hm, watched]

theorem hear_of_not_heard {c : Conversation} (he : c.error? = none) {x : Arrival} (hk : x.kind ∉ watched c.phase) :
    c.hear credentials nonce x = { c with unread := c.unread ++ x.stanza ++ x.gap } := by
  unfold hear
  rw [he, if_neg fun h => hk ((hears_iff he).mp h)]

theorem hear_of_error {c : Conversation} (he : c.error? = none) {x : Arrival} (hk : x.kind ∈ watched c.phase) {e : Error}
    (ha : x.kind.answer x.stanza = .error e) : c.hear credentials nonce x = { c with error? := some e } := by
  unfold hear
  rw [he]
  simp only [(hears_iff he).mpr hk, ha, if_true]

theorem hear_of_ok {c : Conversation} (he : c.error? = none) {x : Arrival} (hk : x.kind ∈ watched c.phase) {a : Answer}
    (ha : x.kind.answer x.stanza = .ok a) : c.hear credentials nonce x = c.answer credentials nonce x.gap a := by
  unfold hear
  rw [he]
  simp only [(hears_iff he).mpr hk, ha, if_true]

/-- Once a stanza was fatal, nothing more is heard. -/
theorem foldl_hear_of_error {c : Conversation} {e : Error} (he : c.error? = some e) (xs : List Arrival) :
    xs.foldl (hear credentials nonce) c = c := by
  induction xs with
  | nil => rfl
  | cons x xs ih =>
    have hx : c.hear credentials nonce x = c := by
      unfold hear
      rw [he]
    rw [List.foldl_cons, hx, ih]

/-! ## A framed stream is a conversation -/

/-- What has been seen of a conversation that goes on. -/
def seen (c : Conversation) : Observation :=
  ⟨c.writes, c.challenges, none, 0, c.phase, []⟩

/-- A conversation goes on as a reading of some bytes does: with the same to be seen, and to the same mechanism. -/
structure Matches (credentials : Credentials) (nonce : String) (c : Conversation) (xs : List Arrival) (tail : Bytes)
    (r : Reading) : Prop where
  observation : (xs.foldl (hear credentials nonce) c).observation tail = c.seen.extend credentials nonce r
  mechanism : (xs.foldl (hear credentials nonce) c).mechanism? = r.answers.foldl Answer.mechanismAfter c.mechanism?

namespace Matches

variable {c : Conversation} {xs : List Arrival} {tail : Bytes} {r : Reading}

theorem error (h : Matches credentials nonce c xs tail r) : (xs.foldl (hear credentials nonce) c).error? = r.error? := by
  have herror := congrArg Observation.error? h.observation
  rw [Conversation.observation] at herror
  split at herror
  · rename_i he
    exact he.trans herror
  · rename_i he
    exact he.trans herror

theorem writes (h : Matches credentials nonce c xs tail r) :
    (xs.foldl (hear credentials nonce) c).writes = c.writes ++ r.answers.filterMap (Answer.write? credentials nonce) := by
  have hwrites := congrArg Observation.writes h.observation
  rw [Conversation.observation] at hwrites
  split at hwrites <;> exact hwrites

theorem challenges (h : Matches credentials nonce c xs tail r) :
    (xs.foldl (hear credentials nonce) c).challenges = c.challenges ++ r.answers.filterMap Answer.challenge? := by
  have hchallenges := congrArg Observation.challenges h.observation
  rw [Conversation.observation] at hchallenges
  split at hchallenges <;> exact hchallenges

/-- Where a conversation that no stanza has ended has come to. -/
theorem position (h : Matches credentials nonce c xs tail r) (he : r.error? = none) :
    (xs.foldl (hear credentials nonce) c).phase = r.phase ∧
      (xs.foldl (hear credentials nonce) c).unread ++ tail = r.unread := by
  have hobservation := h.observation
  rw [Conversation.observation, h.error, he] at hobservation
  exact ⟨congrArg Observation.phase hobservation, congrArg Observation.buffered hobservation⟩

end Matches

/-- At the end of the stanzas, nothing more is taken. -/
theorem matches_nil {c : Conversation} (he : c.error? = none) {tail : Bytes}
    (hq : c.phase.firstSpan? (c.unread ++ tail) = none) :
    Matches credentials nonce c [] tail (c.phase.read (c.unread ++ tail)) := by
  rw [Phase.read_of_none hq]
  refine ⟨?_, rfl⟩
  simp [observation, he, seen, Observation.extend, Observation.answer]

/-- A fatal stanza ends the conversation and the reading. -/
theorem matches_of_error {c : Conversation} (he : c.error? = none) {x : Arrival} (hk : x.kind ∈ watched c.phase) {e : Error}
    (ha : x.kind.answer x.stanza = .error e) (xs : List Arrival) (tail : Bytes) :
    Matches credentials nonce c (x :: xs) tail ⟨[], some e, .closed, []⟩ := by
  have hfold : (x :: xs).foldl (hear credentials nonce) c = { c with error? := some e } := by
    rw [List.foldl_cons, hear_of_error he hk ha]
    exact foldl_hear_of_error rfl xs
  refine ⟨?_, ?_⟩
  · rw [hfold]
    simp [observation, seen, Observation.extend, Observation.answer]
  · rw [hfold]
    rfl

/-- A stanza that is answered is answered in both. -/
theorem matches_of_ok {c : Conversation} (he : c.error? = none) {x : Arrival} (hk : x.kind ∈ watched c.phase) {a : Answer}
    (ha : x.kind.answer x.stanza = .ok a) {xs : List Arrival} {tail : Bytes} {r : Reading}
    (h : Matches credentials nonce (c.answer credentials nonce x.gap a) xs tail r) :
    Matches credentials nonce c (x :: xs) tail (r.following [a]) := by
  have hfold : (x :: xs).foldl (hear credentials nonce) c =
      xs.foldl (hear credentials nonce) (c.answer credentials nonce x.gap a) := by
    rw [List.foldl_cons, hear_of_ok he hk ha]
  refine ⟨?_, ?_⟩
  · rw [hfold, h.observation, Observation.extend_following]
    cases a <;> simp [seen, answer, Observation.extend, Observation.answer, Answer.write?, Answer.challenge?]
  · rw [hfold, h.mechanism]
    cases a <;> rfl

/-- A stanza that is not heard is left unread. -/
theorem matches_of_not_heard {c : Conversation} (he : c.error? = none) {x : Arrival} (hk : x.kind ∉ watched c.phase)
    {xs : List Arrival} {tail : Bytes} {r : Reading}
    (h : Matches credentials nonce { c with unread := c.unread ++ x.stanza ++ x.gap } xs tail r) :
    Matches credentials nonce c (x :: xs) tail r := by
  have hfold : (x :: xs).foldl (hear credentials nonce) c =
      xs.foldl (hear credentials nonce) { c with unread := c.unread ++ x.stanza ++ x.gap } := by
    rw [List.foldl_cons, hear_of_not_heard he hk]
  refine ⟨?_, ?_⟩
  · rw [hfold, h.observation]
    rfl
  · rw [hfold, h.mechanism]

/-- After an answer, challenges are awaited. -/
theorem phase_answer {c : Conversation} (he : c.error? = none) {x : Arrival} (hk : x.kind ∈ watched c.phase) {a : Answer}
    (ha : x.kind.answer x.stanza = .ok a) : (c.answer credentials nonce x.gap a).phase = .awaitingChallenge := by
  rcases Phase.answer_of_watched hk ha with ⟨_, _, m, _, rfl⟩ | ⟨hp, _, challenge, rfl⟩
  · simp only [answer, phase, he]
  · exact hp

/-- Reading a framed stream is hearing its stanzas, and the stream is not ambiguous. -/
theorem matches_read (xs : List Arrival) {c : Conversation} (he : c.error? = none) (hi : c.phase.Idle c.unread) {tail : Bytes}
    (ht : tail = [] ∨ ∃ kind : SpanKind, kind.IsUnfinished tail) :
    Phase.Unambiguous c.phase (c.unread ++ xs.flatMap Arrival.bytes ++ tail) ∧
      Matches credentials nonce c xs tail (c.phase.read (c.unread ++ xs.flatMap Arrival.bytes ++ tail)) := by
  induction xs generalizing c with
  | nil =>
    have hq : c.phase.firstSpan? (c.unread ++ tail) = none := by
      rcases ht with rfl | ⟨kind, hu⟩
      · rw [List.append_nil]
        exact hi.firstSpan?_eq_none
      · exact hi.firstSpan?_unfinished hu
    rw [List.flatMap_nil, List.append_nil]
    exact ⟨.quiet hq, matches_nil he hq⟩
  | cons x xs ih =>
    have hbytes : c.unread ++ (x :: xs).flatMap Arrival.bytes ++ tail =
        c.unread ++ x.stanza ++ (x.gap ++ xs.flatMap Arrival.bytes ++ tail) := by
      simp [Arrival.bytes]
    by_cases hk : x.kind ∈ watched c.phase
    · rw [hbytes]
      have hspan := hi.firstSpan? x.isStanza hk (x.gap ++ xs.flatMap Arrival.bytes ++ tail)
      -- Whatever has arrived, only this stanza can be taken from it.
      have hagree : ∀ arrived early, arrived <+: c.unread ++ x.stanza ++ (x.gap ++ xs.flatMap Arrival.bytes ++ tail) →
          c.phase.firstSpan? arrived = some early → early.kind.answer early.bytes = x.kind.answer x.stanza := by
        intro arrived early hp hearly
        have hkind := hi.kind_of_firstSpan? x.isStanza hk hp hearly
        obtain ⟨more, hmore⟩ := hp
        obtain ⟨hb, _⟩ := Phase.firstSpan?_append_of_kind hearly (hmore ▸ hspan) hkind
        rw [hkind, ← hb]
      cases ha : x.kind.answer x.stanza with
      | error e =>
        have hfatal : ∀ a, x.kind.answer x.stanza = .ok a →
            Phase.Unambiguous .awaitingChallenge (x.gap ++ xs.flatMap Arrival.bytes ++ tail) := by
          intro a ha'
          cases ha.symm.trans ha'
        refine ⟨.taken hspan hagree hfatal, ?_⟩
        rw [Phase.read_of_error hspan ha]
        exact matches_of_error he hk ha xs tail
      | ok a =>
        have hgap : (c.answer credentials nonce x.gap a).unread = x.gap := by cases a <;> rfl
        have herror : (c.answer credentials nonce x.gap a).error? = none := by cases a <;> exact he
        have hrest := ih herror (by rw [hgap]; exact Phase.Idle.of_silent x.silent)
        rw [hgap, phase_answer he hk ha] at hrest
        refine ⟨.taken hspan hagree fun _ _ => hrest.1, ?_⟩
        rw [Phase.read_of_ok hspan ha]
        exact matches_of_ok he hk ha hrest.2
    · have hrest := ih (c := { c with unread := c.unread ++ x.stanza ++ x.gap }) he
        (hi.append_stanza x.isStanza hk x.silent)
      have hunread : c.unread ++ (x :: xs).flatMap Arrival.bytes ++ tail =
          c.unread ++ x.stanza ++ x.gap ++ xs.flatMap Arrival.bytes ++ tail := by
        simp [Arrival.bytes]
      rw [hunread]
      exact ⟨hrest.1, matches_of_not_heard he hk hrest.2⟩

/-- A framed stream is read from its beginning as its stanzas are heard, and it is not ambiguous. -/
theorem matches_start (credentials : Credentials) (nonce : String) (stream : FramedStream) :
    Phase.Unambiguous .awaitingFeatures stream.bytes ∧
      Matches credentials nonce (.start credentials stream.lead) stream.arrivals stream.tail
        (Phase.awaitingFeatures.read stream.bytes) :=
  matches_read stream.arrivals (c := .start credentials stream.lead) rfl (Phase.Idle.of_silent stream.silent) stream.unfinished

end Conversation

/-- A framed stream is a conversation. Whatever pieces a driver hands it over in, it sees of a new session what comes of hearing
the stanzas of the stream one after the other, and the session has the mechanism of the conversation. -/
theorem conversation_of_deliver (id : String) (credentials : Credentials) (nonce : String) (stream : FramedStream)
    (pieces : List Bytes) (h : pieces.flatten = stream.bytes) :
    let d := (Session.new id credentials nonce).deliver pieces
    let c := stream.arrivals.foldl (Conversation.hear credentials nonce) (.start credentials stream.lead)
    d.observation = c.observation stream.tail ∧ d.session.mechanism? = c.mechanism? := by
  intro d c
  obtain ⟨hu, hm⟩ := Conversation.matches_start credentials nonce stream
  obtain ⟨hobs, hmech⟩ := observation_deliver id credentials nonce pieces
  rw [Phase.readPieces_eq_read_of_flatten h hu] at hobs hmech
  exact ⟨hobs.trans hm.observation.symm, hmech.trans hm.mechanism.symm⟩

/-- A framed stream: a challenge that comes too early, a failure behind a line feed, and the beginning of a stream error. -/
def refusal : FramedStream where
  lead := []
  arrivals := [
    { kind := .challenge
      stanza := Utf8.ofString "<challenge>YQ==</challenge>"
      gap := [10]
      isStanza :=
        ⟨⟨Utf8.ofString ">YQ==</challenge>", by decide +kernel, by decide +kernel⟩,
          fun other => by cases other <;> decide +kernel⟩
      silent := fun kind => by cases kind <;> decide },
    { kind := .failure
      stanza := Utf8.ofString "<failure></failure>"
      gap := []
      isStanza :=
        ⟨⟨Utf8.ofString "></failure>", by decide +kernel, by decide +kernel⟩,
          fun other => by cases other <;> decide +kernel⟩
      silent := fun kind => by cases kind <;> decide }]
  tail := Utf8.ofString "<stream:error>"
  silent := fun kind => by cases kind <;> decide
  unfinished := Or.inr ⟨.streamError, ⟨[62], by decide +kernel, by decide +kernel⟩,
    fun other => by cases other <;> decide +kernel⟩

/-- The stream cut inside a delimiter and with an empty piece. -/
theorem conversation_of_deliver_refusal :
    let pieces := [Utf8.ofString "<challenge>YQ==</chall", [], Utf8.ofString "enge>\n<failure></failure><stream:error>"]
    let d := (Session.new "id" ⟨"host", "user", "password"⟩ "nonce").deliver pieces
    let c := refusal.arrivals.foldl (Conversation.hear ⟨"host", "user", "password"⟩ "nonce")
      (.start ⟨"host", "user", "password"⟩ refusal.lead)
    pieces.flatten = refusal.bytes ∧ d.observation = c.observation refusal.tail := by
  intro pieces d c
  have h : pieces.flatten = refusal.bytes := by decide +kernel
  exact ⟨h, (conversation_of_deliver "id" _ "nonce" refusal pieces h).1⟩

end StreamAuth
