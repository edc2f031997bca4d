import StreamAuth.Client.Peer

/-!
# Negotiating over a connection

A client drives one session: it connects, does what each step asks for, and reads on until the first challenge or an error.
The session itself knows no time; the client bounds the connection attempt and every read. An error that a step of the session
returns comes before a failure to do what the step asks for, and that before an error that the step holds back.
-/

namespace StreamAuth

/-- A client and how long it waits. -/
structure Client where
  /-- The address to connect to. -/
  address : String
  /-- How many seconds a connection attempt may take. -/
  connectTimeout : UInt64
  /-- How many seconds a read may take. -/
  readTimeout : UInt64
  /-- How many bytes a read takes at most. -/
  readBufferSize : UInt64
  deriving DecidableEq, Repr

/-- An exchange that has come to its first challenge. -/
structure Negotiation where
  /-- The mechanism that was announced. -/
  mechanism : Mechanism
  /-- The challenge. -/
  challenge : Challenge
  /-- The counters when the challenge arrived. -/
  stats : Session.Stats
  deriving DecidableEq, Repr

/-- How an exchange went. -/
structure Outcome where
  /-- Its result. -/
  result : Except Error Negotiation
  /-- What was done to the connection, if there was one to attempt. -/
  traffic? : Option Traffic

/-- The negotiation that a first challenge completes, unless an error is held behind the challenge. -/
def Session.conclude (s : Session) (challenge : Challenge) : Except Error Negotiation :=
  match s.held?, s.mechanism? with
  | some e, _ => .error e
  | none, some mechanism => .ok ⟨mechanism, challenge, s.stats⟩
  | none, none => .error (.misplaced .challenge)

/-- Goes on with an exchange: hands `event` to the session, does what the session asks for, and reads on from `later`. When
nothing is left to read the peer is silent, and the read takes too long. -/
def Client.converse (client : Client) (peer : Peer) (session : Session) (traffic : Traffic) (event : Event)
    (later : List Event) : Outcome :=
  let (session, outbox, step) := session.dispatch event ({} : Outbox)
  let (traffic, flushed) := traffic.flush peer outbox
  match step, flushed with
  | .error e, _ => ⟨.error e, some traffic⟩
  | .ok _, .error cause => ⟨.error (.system cause), some traffic⟩
  | .ok (challenge :: _), .ok () => ⟨session.conclude challenge, some traffic⟩
  | .ok [], .ok () =>
    match later with
    | next :: later => client.converse peer session traffic next later
    | [] => ⟨.error (.timeout (.data client.readTimeout session.phase)), some (traffic.shutdown peer).1⟩
termination_by later.length

/-- Runs a session over a connection to a peer, up to the first challenge. -/
def Client.negotiate (client : Client) (peer : Peer) (session : Session) : Outcome :=
  match peer.refusal? with
  | some cause => ⟨.error (.transport (.unreachable client.address cause)), none⟩
  | none =>
    if peer.ending = .hang ∨ client.connectTimeout = 0 then
      ⟨.error (.timeout (.connection client.address)), some {}⟩
    else
      client.converse peer session {} .connected (peer.arrivals client.readBufferSize.toNat)

end StreamAuth
