import StreamAuth.Proofs.Characters
import StreamAuth.Proofs.Documents
import StreamAuth.Proofs.Framing
import StreamAuth.Session

/-!
# What a complete stanza brings about

A complete stanza is answered, with the announcement of a mechanism or with a challenge for the caller, or it is fatal. Which of
these it is depends on its kind and its bytes alone (`SpanKind.answer`); the session adds only its credentials, its nonce and
its counters (`Session.react_eq`). A stanza that is written for a tree is answered by what the tree says. Which stanza is taken next depends on the phase and the bytes alone (`Phase.firstSpan?`).
-/

namespace StreamAuth

/-! ## Delimiters -/

theorem SpanKind.opening_ne_nil (kind : SpanKind) : kind.delimiters.opening ≠ [] := by
  cases kind <;> decide

theorem SpanKind.closing_ne_nil (kind : SpanKind) : kind.delimiters.closing ≠ [] := by
  cases kind <;> decide

/-! ## Answers -/

/-- What the client does about a stanza that is not fatal. -/
inductive Answer where
  /-- Announce a mechanism. -/
  | announce (mechanism : Mechanism)
  /-- Hand a challenge to the caller. -/
  | pass (challenge : Challenge)
  deriving DecidableEq

/-- What comes of a complete stanza: an answer, or the error that ends the session. -/
def SpanKind.answer (kind : SpanKind) (span : Bytes) : Except Error Answer :=
  match kind with
  | .features =>
    match readFeatures span with
    | .error e => .error e
    | .ok offer =>
      match Mechanism.select offer with
      | .plain => .error (.nothingInCommon offer.toList)
      | mechanism => .ok (.announce mechanism)
  | .challenge =>
    match Challenge.decode span with
    | .error e => .error e
    | .ok c => .ok (.pass c)
  | .failure =>
    match parseSpan span with
    | .error e => .error e
    | .ok root => .error (.rejected (conditionOf root))
  | .streamError =>
    match parseSpan span with
    | .error e => .error e
    | .ok root => .error (.streamError (conditionOf root))

/-- What a session asks for when it gives an answer. -/
def Answer.action (credentials : Credentials) (nonce : String) : Answer → Action
  | .announce mechanism => .write (Stanza.announce mechanism credentials.username nonce).toBytes
  | .pass challenge => .challenge challenge

/-- The session after it has given an answer. -/
def Session.give (s : Session) : Answer → Session
  | .announce mechanism =>
    { s with
      phase := .awaitingChallenge
      mechanism? := some mechanism
      bytesWritten := s.bytesWritten + (Stanza.announce mechanism s.credentials.username s.nonce).toBytes.length }
  | .pass _ => { s with challenges := s.challenges + 1 }

/-- A session reacts to a span with the span's answer. -/
theorem Session.react_eq (s : Session) (span : Bytes) (kind : SpanKind) :
    s.react span kind = (kind.answer span).map fun a => (s.give a, a.action s.credentials s.nonce) := by
  cases kind with
  | features =>
    simp only [react, announce, SpanKind.answer]
    cases readFeatures span with
    | error e => rfl
    | ok offer => cases hm : Mechanism.select offer <;> simp only [bind, Except.bind, hm] <;> rfl
  | challenge =>
    simp only [react, receiveChallenge, SpanKind.answer]
    cases Challenge.decode span <;> rfl
  | failure =>
    simp only [react, SpanKind.answer]
    cases parseSpan span <;> rfl
  | streamError =>
    simp only [react, SpanKind.answer]
    cases parseSpan span <;> rfl

theorem Session.react_eq_error_iff {s : Session} {span : Bytes} {kind : SpanKind} {e : Error} :
    s.react span kind = .error e ↔ kind.answer span = .error e := by
  rw [react_eq]
  cases kind.answer span <;> simp [Except.map]

theorem Session.react_eq_ok_iff {s t : Session} {span : Bytes} {kind : SpanKind} {action : Action} :
    s.react span kind = .ok (t, action) ↔
      ∃ a, kind.answer span = .ok a ∧ s.give a = t ∧ a.action s.credentials s.nonce = action := by
  rw [react_eq]
  cases kind.answer span <;> simp [Except.map]

/-- Only features and challenges are answered, each in its own way, and PLAIN is never announced. -/
theorem SpanKind.answer_ok {kind : SpanKind} {span : Bytes} {a : Answer} (h : kind.answer span = .ok a) :
    (kind = .features ∧ ∃ m, m ≠ Mechanism.plain ∧ a = .announce m) ∨ (kind = .challenge ∧ ∃ c, a = .pass c) := by
  cases kind with
  | features =>
    simp only [answer] at h
    split at h
    · cases h
    · split at h
      · cases h
      · rename_i hm
        cases h
        exact Or.inl ⟨rfl, _, hm, rfl⟩
  | challenge =>
    simp only [answer] at h
    split at h
    · cases h
    · cases h
      exact Or.inr ⟨rfl, _, rfl⟩
  | failure =>
    simp only [answer] at h
    split at h <;> cases h
  | streamError =>
    simp only [answer] at h
    split at h <;> cases h

/-- The same answer is not given to stanzas of different kinds. -/
theorem SpanKind.kind_eq_of_answer {kind other : SpanKind} {span bytes : Bytes} {a : Answer}
    (h : kind.answer span = .ok a) (ho : other.answer bytes = .ok a) : kind = other := by
  rcases answer_ok h with ⟨rfl, m, _, rfl⟩ | ⟨rfl, c, rfl⟩
  · rcases answer_ok ho with ⟨rfl, _⟩ | ⟨_, _, hc⟩
    · rfl
    · cases hc
  · rcases answer_ok ho with ⟨_, _, _, hm⟩ | ⟨rfl, _⟩
    · cases hm
    · rfl

/-! ## Stanzas as they are written -/

section

variable {root : Xml.Element} {cs : List Char}

/-- A written document is read from its text. -/
theorem parseText_of_written (h : Xml.Written [root] cs) : parseText (String.ofList cs) = .ok root := by
  have hparse := Xml.parse_written h []
  rw [List.append_nil] at hparse
  rw [parseText, hparse]
  rfl

/-- A written document is read from its bytes. -/
theorem parseSpan_of_written (h : Xml.Written [root] cs) : parseSpan (Utf8.encode cs) = .ok root := by
  simp only [parseSpan, Utf8.decode_encode, parseText_of_written h]

/-- Features name the mechanisms of the tree that was written. -/
theorem readFeatures_of_written (h : Xml.Written [root] cs) : readFeatures (Utf8.encode cs) = .ok (offerOf root) := by
  simp only [readFeatures, Utf8.decode_encode, readOffer, parseText_of_written h]
  rfl

namespace SpanKind

/-- Features that offer a mechanism are answered with its announcement. -/
theorem answer_features_of_written (h : Xml.Written [root] cs) {m : Mechanism} (hselect : Mechanism.select (offerOf root) = m)
    (hm : m ≠ .plain) : features.answer (Utf8.encode cs) = .ok (.announce m) := by
  simp only [answer, readFeatures_of_written h, hselect]

/-- A challenge whose text is an encoding is passed on. -/
theorem answer_challenge_of_written (h : Xml.Written [root] cs) (hname : root.localName = challenge.tag) {payload : Bytes}
    (hpayload : Base64.decode (Utf8.ofString root.text) = .ok payload) :
    challenge.answer (Utf8.encode cs) = .ok (.pass ⟨payload⟩) := by
  have hdecode : Challenge.decode (Utf8.encode cs) = .ok ⟨payload⟩ := by
    simp only [Challenge.decode, parseSpan_of_written h, bind, Except.bind, if_pos hname, hpayload]
    rfl
  simp only [answer, hdecode]

/-- A failure is a rejection with its condition. -/
theorem answer_failure_of_written (h : Xml.Written [root] cs) :
    failure.answer (Utf8.encode cs) = .error (.rejected (conditionOf root)) := by
  simp only [answer, parseSpan_of_written h]

/-- A stream error is fatal with its condition. -/
theorem answer_streamError_of_written (h : Xml.Written [root] cs) :
    streamError.answer (Utf8.encode cs) = .error (.streamError (conditionOf root)) := by
  simp only [answer, parseSpan_of_written h]

end SpanKind

end

/-! ## The span that is taken next -/

open Session (watched watchedDelimiters)

/-- The span that a session takes next out of some bytes in a phase. -/
def Phase.firstSpan? (phase : Phase) (bytes : Bytes) : Option (Span SpanKind) :=
  earliest? (watchedDelimiters phase) bytes

theorem Session.nextSpan?_eq (s : Session) : s.nextSpan? = s.phase.firstSpan? s.buffer.bytes :=
  rfl

/-- A kind is watched for in a phase exactly when its delimiters are. -/
theorem mem_watchedDelimiters {phase : Phase} {kind : SpanKind} {d : Delimiters} :
    (kind, d) ∈ watchedDelimiters phase ↔ kind ∈ watched phase ∧ d = kind.delimiters := by
  simp only [watchedDelimiters, List.mem_map, Prod.mk.injEq]
  constructor
  · rintro ⟨k, hk, rfl, rfl⟩
    exact ⟨hk, rfl⟩
  · rintro ⟨hk, rfl⟩
    exact ⟨kind, hk, rfl, rfl⟩

/-- The span taken next is the frame of a kind that is watched for, and no such kind has a frame that begins before it. -/
theorem Phase.frame?_of_firstSpan? {phase : Phase} {bytes : Bytes} {span : Span SpanKind}
    (h : phase.firstSpan? bytes = some span) :
    span.kind ∈ watched phase ∧
      ∃ dropped, span.kind.delimiters.frame? bytes = some ⟨dropped, span.bytes, span.rest⟩ ∧
        ∀ kind ∈ watched phase, ∀ f, kind.delimiters.frame? bytes = some f → dropped.length ≤ f.dropped.length := by
  obtain ⟨d, dropped, hm, hd, hmin⟩ := frame?_of_earliest? h
  obtain ⟨hk, rfl⟩ := mem_watchedDelimiters.mp hm
  exact ⟨hk, dropped, hd, fun kind hk' f hf => hmin kind _ f (mem_watchedDelimiters.mpr ⟨hk', rfl⟩) hf⟩

/-- A span is taken as soon as a kind that is watched for has a frame. -/
theorem Phase.exists_firstSpan? {phase : Phase} {bytes : Bytes} {kind : SpanKind} {f : Frame} (hk : kind ∈ watched phase)
    (hf : kind.delimiters.frame? bytes = some f) : ∃ span, phase.firstSpan? bytes = some span :=
  exists_earliest?_of_frame? (mem_watchedDelimiters.mpr ⟨hk, rfl⟩) hf

/-- A span that can be taken can still be taken when more bytes have arrived, though perhaps another one then comes first. -/
theorem Phase.exists_firstSpan?_append {phase : Phase} {bytes : Bytes} {span : Span SpanKind} (more : Bytes)
    (h : phase.firstSpan? bytes = some span) : ∃ other, phase.firstSpan? (bytes ++ more) = some other := by
  obtain ⟨hk, _, hf, _⟩ := frame?_of_firstSpan? h
  exact exists_firstSpan? hk (Delimiters.frame?_append more hf)

/-- Where the span taken next is of the same kind with more bytes as without them, it is the same span. -/
theorem Phase.firstSpan?_append_of_kind {phase : Phase} {bytes more : Bytes} {span other : Span SpanKind}
    (h : phase.firstSpan? bytes = some span) (ho : phase.firstSpan? (bytes ++ more) = some other)
    (hkind : span.kind = other.kind) : other.bytes = span.bytes ∧ other.rest = span.rest ++ more := by
  obtain ⟨_, _, hf, _⟩ := frame?_of_firstSpan? h
  obtain ⟨_, _, hg, _⟩ := frame?_of_firstSpan? ho
  have he := Delimiters.frame?_append more hf
  rw [hkind, hg] at he
  obtain ⟨_, hbytes, hrest⟩ := Frame.mk.inj (Option.some.inj he)
  exact ⟨hbytes, hrest⟩

/-- The rest after a span is shorter than what the span was taken from. -/
theorem Phase.length_rest_lt {phase : Phase} {bytes : Bytes} {span : Span SpanKind}
    (h : phase.firstSpan? bytes = some span) : span.rest.length < bytes.length := by
  obtain ⟨_, _, hf, _⟩ := frame?_of_firstSpan? h
  exact Delimiters.length_rest_lt hf

/-- What is answered in a phase: features with a mechanism while they are awaited, challenges with themselves after that. -/
theorem Phase.answer_of_watched {phase : Phase} {kind : SpanKind} {span : Bytes} {a : Answer} (hk : kind ∈ watched phase)
    (h : kind.answer span = .ok a) :
    (phase = .awaitingFeatures ∧ kind = .features ∧ ∃ m, m ≠ Mechanism.plain ∧ a = .announce m) ∨
      (phase = .awaitingChallenge ∧ kind = .challenge ∧ ∃ c, a = .pass c) := by
  rcases SpanKind.answer_ok h with ⟨rfl, ha⟩ | ⟨rfl, ha⟩
  · cases phase <;> simp [watched] at hk
    exact Or.inl ⟨rfl, rfl, ha⟩
  · cases phase <;> simp [watched] at hk
    exact Or.inr ⟨rfl, rfl, ha⟩

end StreamAuth
