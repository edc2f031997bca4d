import StreamAuth.Framing

/-!
# The receive buffer

The bytes that have arrived and that no span has used up. Bytes are added at the end, and the first complete span is taken out
together with everything in front of it.
-/

namespace StreamAuth

/-- The bytes that have been received and not yet used up. -/
structure ReceiveBuffer where
  /-- The bytes, oldest first. -/
  bytes : Bytes
  deriving DecidableEq, Repr

namespace ReceiveBuffer

/-- The buffer before anything is received. -/
def empty : ReceiveBuffer := ⟨[]⟩

/-- Whether nothing is waiting. -/
def isEmpty (b : ReceiveBuffer) : Bool := b.bytes.isEmpty

/-- The number of bytes waiting. -/
def length (b : ReceiveBuffer) : Nat := b.bytes.length

/-- The buffer after more bytes have arrived. -/
def append (b : ReceiveBuffer) (bytes : Bytes) : ReceiveBuffer := ⟨b.bytes ++ bytes⟩

/-- The first complete span, and the buffer after it has been taken out; without one, the buffer as it is. -/
def extract (b : ReceiveBuffer) (d : Delimiters) : Option Bytes × ReceiveBuffer :=
  match d.frame? b.bytes with
  | some f => (some f.span, ⟨f.rest⟩)
  | none => (none, b)

/-- The offset at which the first complete span begins. -/
def spanStart? (b : ReceiveBuffer) (d : Delimiters) : Option Nat :=
  (d.frame? b.bytes).map (·.dropped.length)

end ReceiveBuffer

end StreamAuth
