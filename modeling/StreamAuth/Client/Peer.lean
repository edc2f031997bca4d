import StreamAuth.Session

/-!
# The other end of a connection

A peer as a client meets it: what it sends, piece by piece, how it ends the stream, and which of the client's requests fail.
Reading gives the client one event after another; what the client does to the connection leaves its traces in the traffic.
-/

namespace StreamAuth

/-! ## The peer -/

/-- What a peer does once it has sent all it has to send, or instead of sending anything. -/
inductive Ending where
  /-- It ends the stream. -/
  | close
  /-- It breaks the connection. -/
  | reset
  /-- It says nothing more. -/
  | silent
  /-- It takes no connection. -/
  | refuse
  /-- It never answers a connection attempt. -/
  | hang
  deriving DecidableEq, Repr

/-- A peer, by what it will do. -/
structure Peer where
  /-- What it sends. No read goes beyond the end of a segment. -/
  segments : List Bytes
  /-- What it does after that. -/
  ending : Ending
  /-- The error that a connection attempt meets. -/
  connectError? : Option SystemError := none
  /-- The number of the write that fails, and its error. -/
  writeFailure? : Option (Nat × SystemError) := none
  /-- The error that shutting the connection down meets. -/
  shutdownError? : Option SystemError := none
  deriving DecidableEq, Repr

/-- A byte string in pieces of `size` bytes, the last of which may be shorter. A size of zero counts as one. -/
def chunks (size : Nat) (bytes : Bytes) : List Bytes :=
  if _h : bytes = [] then [] else bytes.take (max size 1) :: chunks size (bytes.drop (max size 1))
termination_by bytes.length
decreasing_by
  have := List.length_pos_iff.mpr _h
  simp only [List.length_drop]
  omega

/-- The events of reading from a peer with a buffer of `size` bytes. After the last of them the peer is silent. -/
def Peer.arrivals (p : Peer) (size : Nat) : List Event :=
  (p.segments.flatMap (chunks size)).map .received ++
    match p.ending with
    | .close => [.failed .closedByPeer]
    | .reset => [.failed (.read ⟨104⟩)]
    | .silent | .refuse | .hang => []

/-- The error that a connection attempt meets, if it is not taken. -/
def Peer.refusal? (p : Peer) : Option SystemError :=
  p.connectError?.or (if p.ending = .refuse then some ⟨101⟩ else none)

/-! ## Traffic -/

/-- Something that a client does to a connection. -/
inductive Request where
  /-- A write that the peer receives. -/
  | sent (bytes : Bytes)
  /-- A write that fails. The peer receives nothing of it. -/
  | refused (bytes : Bytes)
  /-- A shutdown, whether it fails or not. -/
  | shutdown
  deriving DecidableEq, Repr

/-- What a client has done to a connection. -/
structure Traffic where
  /-- What was done, in order. -/
  requests : List Request := []
  deriving DecidableEq, Repr

/-- The bytes of a write that the peer receives. -/
def Request.sent? : Request → Option Bytes
  | sent bytes => some bytes
  | refused _ | shutdown => none

namespace Traffic

/-- The writes that the peer has received, in order. -/
def writes (t : Traffic) : List Bytes := t.requests.filterMap Request.sent?

/-- How often the connection was shut down. -/
def shutdowns (t : Traffic) : Nat := t.requests.count .shutdown

/-- All bytes that the peer has received. -/
def received (t : Traffic) : Bytes := t.writes.flatten

/-- The traffic with something more done. -/
def after (t : Traffic) (request : Request) : Traffic := ⟨t.requests ++ [request]⟩

/-- Writes to the peer. -/
def write (t : Traffic) (p : Peer) (bytes : Bytes) : Traffic × Except SystemError Unit :=
  match p.writeFailure? with
  | some (index, cause) =>
    if t.writes.length = index then (t.after (.refused bytes), .error cause) else (t.after (.sent bytes), .ok ())
  | none => (t.after (.sent bytes), .ok ())

/-- Writes to the peer until a write fails. -/
def writeAll (t : Traffic) (p : Peer) : List Bytes → Traffic × Except SystemError Unit
  | [] => (t, .ok ())
  | bytes :: rest =>
    match t.write p bytes with
    | (t, .error cause) => (t, .error cause)
    | (t, .ok ()) => writeAll t p rest

/-- Shuts the connection down. -/
def shutdown (t : Traffic) (p : Peer) : Traffic × Except SystemError Unit :=
  (t.after .shutdown,
    match p.shutdownError? with
    | some cause => .error cause
    | none => .ok ())

/-- Does what a step has asked for: the writes first, and then, if all of them were taken, the shutdown. -/
def flush (t : Traffic) (p : Peer) (outbox : Outbox) : Traffic × Except SystemError Unit :=
  match t.writeAll p outbox.pending with
  | (t, .error cause) => (t, .error cause)
  | (t, .ok ()) => if outbox.disconnecting then t.shutdown p else (t, .ok ())

end Traffic

end StreamAuth
