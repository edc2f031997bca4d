import StreamAuth.Text.Utf8

/-!
# Transports

The session never touches a connection. It asks a transport to write bytes or to disconnect, and asking for the latter twice
does no harm. Two transports are kept here: one that records what it is asked, and one that holds it back until the end of a
step.
-/

namespace StreamAuth

/-- What a session can ask of a connection. -/
class Transport (τ : Type) where
  /-- Hands bytes to the peer. -/
  write : τ → Bytes → τ
  /-- Ends the connection. -/
  disconnect : τ → τ

/-! ## A record of what was asked -/

/-- Everything that was asked of a transport. -/
structure Recorder where
  /-- The writes in order. -/
  writes : List Bytes := []
  /-- How often the connection was ended. -/
  disconnects : Nat := 0
  deriving DecidableEq, Repr

namespace Recorder

instance : Transport Recorder where
  write r bytes := { r with writes := r.writes ++ [bytes] }
  disconnect r := { r with disconnects := r.disconnects + 1 }

/-- All bytes written, one write after another. -/
def written (r : Recorder) : Bytes := r.writes.flatten

/-- Whether the connection was ended. -/
def isDisconnected (r : Recorder) : Bool := 0 < r.disconnects

/-- The writes recorded so far, and the record without them. -/
def takeWrites (r : Recorder) : List Bytes × Recorder :=
  (r.writes, { r with writes := [] })

end Recorder

/-! ## What is held back for one step -/

/-- What a step asked for and its driver has not yet done. -/
structure Outbox where
  /-- The writes in order. -/
  pending : List Bytes := []
  /-- Whether the connection is to be ended. -/
  disconnecting : Bool := false
  deriving DecidableEq, Repr

instance : Transport Outbox where
  write o bytes := { o with pending := o.pending ++ [bytes] }
  disconnect o := { o with disconnecting := true }

end StreamAuth
