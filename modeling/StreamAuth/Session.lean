import StreamAuth.Challenge
import StreamAuth.ReceiveBuffer
import StreamAuth.Stanza.Outbound
import StreamAuth.Text.Quoted
import StreamAuth.Transport

/-!
# Sessions

One attempt to authenticate. A session is driven by the events of its transport: it opens the stream, answers the features
with the announcement of a mechanism, and hands out the challenges that follow. Complete stanzas are taken in the order of
the stream; incomplete input changes nothing but the buffer, and any error closes the session. Output that came before an
error in the same step is returned first, and the error is held for the next call.
-/

namespace StreamAuth

/-! ## Credentials -/

/-- Who authenticates, and where. -/
structure Credentials where
  /-- The domain that the stream is addressed to. -/
  host : String
  /-- The user name. -/
  username : String
  /-- The password, which the first messages do not use. -/
  password : String
  deriving DecidableEq

/-- Credentials in words, without the password. -/
def Credentials.describe (c : Credentials) : String :=
  "Credentials \x7b host: " ++ Text.quoted c.host ++ ", username: " ++ Text.quoted c.username ++
    ", password: \"<redacted>\" \x7d"

/-! ## Events and actions -/

/-- What a transport reports. -/
inductive Event where
  /-- The connection is there. -/
  | connected
  /-- Bytes arrived, cut anywhere. -/
  | received (bytes : Bytes)
  /-- The transport failed. -/
  | failed (fault : TransportFault)
  deriving DecidableEq, Repr

/-- What a step of a session asks for. -/
inductive Action where
  /-- Hand bytes to the peer. -/
  | write (bytes : Bytes)
  /-- Hand a challenge to the caller. -/
  | challenge (challenge : Challenge)
  /-- End the connection, after the output of a step that ended on an error. -/
  | disconnect
  deriving DecidableEq, Repr

/-! ## The session -/

/-- One attempt to authenticate. -/
structure Session where
  /-- A name for the session in reports. -/
  id : String
  /-- Who authenticates, and where. -/
  credentials : Credentials
  /-- The client's nonce. -/
  nonce : String
  /-- What the session waits for. -/
  phase : Phase := .connecting
  /-- The bytes that no span has used up. -/
  buffer : ReceiveBuffer := .empty
  /-- The mechanism that was announced. -/
  mechanism? : Option Mechanism := none
  /-- The number of bytes received. -/
  bytesReceived : Nat := 0
  /-- The number of bytes written. -/
  bytesWritten : Nat := 0
  /-- The number of spans taken from the buffer. -/
  spansExtracted : Nat := 0
  /-- The number of challenges decoded. -/
  challenges : Nat := 0
  /-- An error that has closed the session and has not been returned yet. -/
  held? : Option Error := none
  deriving DecidableEq

namespace Session

/-- A session that has not been connected. -/
def new (id : String) (credentials : Credentials) (nonce : String) : Session :=
  { id, credentials, nonce }

/-- Whether the session has failed or was closed. -/
def isClosed (s : Session) : Bool := s.phase == .closed

/-- Closes the session and throws away what is buffered. -/
def close (s : Session) : Session :=
  { s with phase := .closed, buffer := .empty }

/-- The error that is held, and the session without it. -/
def takeError (s : Session) : Option Error × Session :=
  (s.held?, { s with held? := none })

/-! ## Spans -/

/-- The kinds of span that are watched for in a phase. The kind that the phase waits for comes first. -/
def watched : Phase → List SpanKind
  | .awaitingFeatures => [.features, .failure, .streamError]
  | .awaitingChallenge => [.challenge, .failure, .streamError]
  | .connecting | .closed => []

/-- The kinds of span that are watched for, with their delimiters. -/
def watchedDelimiters (phase : Phase) : List (SpanKind × Delimiters) :=
  (watched phase).map fun kind => (kind, kind.delimiters)

/-- The span that the session reacts to next: of the kinds that are watched for, the one with the earliest complete span. -/
def nextSpan? (s : Session) : Option (Span SpanKind) :=
  earliest? (watchedDelimiters s.phase) s.buffer.bytes

/-- The next span is the first complete span of its kind, which is watched for. -/
theorem frame?_of_nextSpan? {s : Session} {span : Span SpanKind} (h : s.nextSpan? = some span) :
    span.kind ∈ watched s.phase ∧
      ∃ dropped, span.kind.delimiters.frame? s.buffer.bytes = some ⟨dropped, span.bytes, span.rest⟩ := by
  obtain ⟨d, dropped, hm, hd, _⟩ := frame?_of_earliest? h
  obtain ⟨kind, hk, he⟩ := List.mem_map.mp hm
  cases he
  exact ⟨hk, dropped, hd⟩

/-! ## Steps -/

/-- The session after it has asked for something. -/
def emit (s : Session) : Action → Session
  | .write bytes => { s with bytesWritten := s.bytesWritten + bytes.length }
  | .challenge _ => { s with challenges := s.challenges + 1 }
  | .disconnect => s

/-- Opens the stream. -/
def openStream (s : Session) : Session × Action :=
  let action := .write (Stanza.streamHeader s.credentials.host).toBytes
  (emit { s with phase := .awaitingFeatures } action, action)

/-- Announces the strongest mechanism of the features. -/
def announce (s : Session) (span : Bytes) : Except Error (Session × Action) := do
  let offer ← readFeatures span
  match Mechanism.select offer with
  | .plain => throw (.nothingInCommon offer.toList)
  | mechanism =>
    let action := .write (Stanza.announce mechanism s.credentials.username s.nonce).toBytes
    return (emit { s with phase := .awaitingChallenge, mechanism? := some mechanism } action, action)

/-- Decodes a challenge for the caller. -/
def receiveChallenge (s : Session) (span : Bytes) : Except Error (Session × Action) := do
  let challenge ← Challenge.decode span
  return (emit s (.challenge challenge), .challenge challenge)

/-- What the session makes of a complete span. -/
def react (s : Session) (span : Bytes) : SpanKind → Except Error (Session × Action)
  | .features => s.announce span
  | .challenge => s.receiveChallenge span
  | .failure => do throw (.rejected (conditionOf (← parseSpan span)))
  | .streamError => do throw (.streamError (conditionOf (← parseSpan span)))

/-- The session after a span has been taken from its buffer. -/
def take (s : Session) (span : Span SpanKind) : Session :=
  { s with buffer := ⟨span.rest⟩, spansExtracted := s.spansExtracted + 1 }

/-- What a run of steps leaves: the session, what it asked for, and the error that ended it. -/
structure Run where
  /-- The session at the end. -/
  session : Session
  /-- What was asked for, in order. -/
  actions : List Action
  /-- The error that ended the run, if one did. -/
  error? : Option Error
  deriving DecidableEq

theorem buffer_of_react {s t : Session} {span : Bytes} {kind : SpanKind} {a : Action}
    (h : s.react span kind = .ok (t, a)) : t.buffer = s.buffer := by
  cases kind
  · unfold react announce at h
    cases hf : readFeatures span with
    | error e => simp [hf, bind, Except.bind] at h
    | ok offer =>
      simp only [hf, bind, Except.bind] at h
      split at h
      · cases h
      · cases h; rfl
  · unfold react receiveChallenge at h
    cases hc : Challenge.decode span with
    | error e => simp [hc, bind, Except.bind] at h
    | ok c =>
      simp only [hc, bind, Except.bind] at h
      cases h
      rfl
  all_goals
    unfold react at h
    cases hp : parseSpan span <;> simp [hp, bind, Except.bind, throw, throwThe, MonadExceptOf.throw] at h

/-- Takes and answers complete spans until none is left or one is fatal. -/
def drain (s : Session) : Run :=
  match _h : s.nextSpan? with
  | none => ⟨s, [], none⟩
  | some span =>
    match _hr : (s.take span).react span.bytes span.kind with
    | .error e => ⟨s.take span, [], some e⟩
    | .ok (t, action) =>
      let run := t.drain
      { run with actions := action :: run.actions }
termination_by s.buffer.length
decreasing_by
  obtain ⟨_, _, hf⟩ := frame?_of_nextSpan? _h
  rw [buffer_of_react _hr]
  exact Delimiters.length_rest_lt hf

/-- What the session does with an event, before any error is returned. -/
def advance (s : Session) : Event → Run
  | .connected =>
    match s.phase with
    | .connecting =>
      let (t, action) := s.openStream
      ⟨t, [action], none⟩
    | phase => ⟨s, [], some (.misplaced (.connected phase))⟩
  | .received bytes =>
    match s.phase with
    | .awaitingFeatures | .awaitingChallenge =>
      drain { s with
        buffer := s.buffer.append bytes
        bytesReceived := s.bytesReceived + bytes.length }
    | phase => ⟨s, [], some (.misplaced (.received bytes.length phase))⟩
  | .failed fault => ⟨s, [], some (.transport fault)⟩

/-- One step of the session: what it asks for, or the error that closed it. An error that is held comes first, and the event
is then not looked at. An error after some output is held, and a request to end the connection follows the output. -/
def handle (s : Session) (event : Event) : Session × Except Error (List Action) :=
  match s.held? with
  | some e => ({ s with held? := none }, .error e)
  | none =>
    match s.advance event with
    | ⟨t, actions, none⟩ => (t, .ok actions)
    | ⟨t, [], some e⟩ => (t.close, .error e)
    | ⟨t, actions, some e⟩ => ({ t.close with held? := some e }, .ok (actions ++ [.disconnect]))

/-! ## Steps on a transport -/

/-- Does on a transport what an action asks for. -/
def perform {τ : Type} [Transport τ] (transport : τ) : Action → τ
  | .write bytes => Transport.write transport bytes
  | .challenge _ => transport
  | .disconnect => Transport.disconnect transport

/-- The challenge that an action hands out. -/
def challengeOf? : Action → Option Challenge
  | .challenge c => some c
  | _ => none

/-- One step of the session on a transport: the challenges it decoded, or the error that closed it. The connection is ended
before the error is returned, unless that was done before. A held error waits for the next call only if there are challenges
to return. -/
def dispatch {τ : Type} [Transport τ] (s : Session) (event : Event) (transport : τ) :
    Session × τ × Except Error (List Challenge) :=
  match s.isClosed, s.handle event with
  | true, (t, .error e) => (t, transport, .error e)
  | false, (t, .error e) => (t, Transport.disconnect transport, .error e)
  | _, (t, .ok actions) =>
    let transport := actions.foldl perform transport
    match actions.filterMap challengeOf?, t.held? with
    | [], some e => ({ t with held? := none }, transport, .error e)
    | challenges, _ => (t, transport, .ok challenges)

/-! ## Statistics -/

/-- The counters of a session. -/
structure Stats where
  /-- The name of the session. -/
  sessionId : String
  /-- What the session waits for. -/
  phase : Phase
  /-- The mechanism that was announced. -/
  mechanism? : Option Mechanism
  /-- The number of bytes received. -/
  bytesReceived : Nat
  /-- The number of bytes written. -/
  bytesWritten : Nat
  /-- The number of bytes buffered. -/
  bytesBuffered : Nat
  /-- The number of spans taken from the buffer. -/
  spansExtracted : Nat
  /-- The number of challenges decoded. -/
  challenges : Nat
  deriving DecidableEq, Repr

/-- The counters of a session as they stand. -/
def stats (s : Session) : Stats :=
  ⟨s.id, s.phase, s.mechanism?, s.bytesReceived, s.bytesWritten, s.buffer.length, s.spansExtracted, s.challenges⟩

end Session

end StreamAuth
