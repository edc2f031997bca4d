import StreamAuth.Text.Utf8
import StreamAuth.Text.Blank

/-!
# Base64

Payloads travel as base64 text in the standard alphabet, padded to whole quads. Encoding never folds. Decoding first drops
the blanks that a server may fold with, and then accepts the one encoding of each payload: the padding must be there and the
unused bits of the last symbol must be zero.
-/

namespace StreamAuth.Base64

/-! ## The alphabet -/

/-- The padding byte, `=`. -/
def pad : UInt8 := 61

/-- The symbol of a value below 64: `A`–`Z`, `a`–`z`, `0`–`9`, `+` and `/`. -/
def symbol (n : Nat) : UInt8 :=
  if n < 26 then .ofNat (n + 65)
  else if n < 52 then .ofNat (n + 71)
  else if n < 62 then .ofNat (n - 4)
  else if n = 62 then 43
  else 47

/-- The value of a symbol, if it is in the alphabet. -/
def value? (b : UInt8) : Option Nat :=
  if 65 ≤ b && b ≤ 90 then some (b.toNat - 65)
  else if 97 ≤ b && b ≤ 122 then some (b.toNat - 71)
  else if 48 ≤ b && b ≤ 57 then some (b.toNat + 4)
  else if b = 43 then some 62
  else if b = 47 then some 63
  else none

/-! ## Encoding -/

/-- The padded encoding of a payload, three bytes to four symbols. -/
def encode : Bytes → Bytes
  | [] => []
  | [a] => [symbol (a.toNat / 4), symbol (a.toNat % 4 * 16), pad, pad]
  | [a, b] =>
    [symbol (a.toNat / 4), symbol (a.toNat % 4 * 16 + b.toNat / 16), symbol (b.toNat % 16 * 4), pad]
  | a :: b :: c :: rest =>
    symbol (a.toNat / 4) :: symbol (a.toNat % 4 * 16 + b.toNat / 16) ::
      symbol (b.toNat % 16 * 4 + c.toNat / 64) :: symbol (c.toNat % 64) :: encode rest

/-- The padded encoding of a payload, as text. -/
def encodeText (payload : Bytes) : String :=
  String.ofList ((encode payload).map fun b => Char.ofNat b.toNat)

/-! ## Decoding -/

/-- Why a text is the encoding of no payload. -/
inductive DecodeError where
  /-- A byte that is not in the alphabet, or padding where a symbol must stand. -/
  | invalidByte (offset : Nat) (byte : UInt8)
  /-- The text breaks off after a symbol that holds no whole byte. -/
  | invalidLength (length : Nat)
  /-- The last symbol has bits that belong to no byte. -/
  | invalidLastSymbol (offset : Nat) (byte : UInt8)
  /-- The padding does not complete the last quad. -/
  | invalidPadding
  deriving DecidableEq, Repr

/-- A decoding error in words. -/
def DecodeError.message : DecodeError → String
  | .invalidByte offset byte => s!"Invalid symbol {byte}, offset {offset}."
  | .invalidLength length => s!"Invalid input length: {length}"
  | .invalidLastSymbol offset byte => s!"Invalid last symbol {byte}, offset {offset}."
  | .invalidPadding => "Invalid padding"

/-- The value of the symbol at `offset`. -/
def valueAt (offset : Nat) (b : UInt8) : Except DecodeError Nat :=
  match value? b with
  | some v => .ok v
  | none => .error (.invalidByte offset b)

/-- The values of a run of symbols that begins at `offset`. -/
def valuesFrom (offset : Nat) : Bytes → Except DecodeError (List Nat)
  | [] => .ok []
  | b :: rest => do
    let v ← valueAt offset b
    let vs ← valuesFrom (offset + 1) rest
    return v :: vs

/-- The three bytes of four values. -/
def joined (v w x y : Nat) : Bytes :=
  [.ofNat (v * 4 + w / 16), .ofNat (w % 16 * 16 + x / 4), .ofNat (x % 4 * 64 + y)]

/-- The payload of the last quad, which begins at `offset` and may be short or padded. Its faults come in this order: a foreign
byte, padding out of place, too few symbols, a wrong amount of padding, surplus bits. -/
def decodeLast (offset : Nat) (quad : Bytes) : Except DecodeError Bytes := do
  let symbols := quad.takeWhile (· != pad)
  let padding := quad.dropWhile (· != pad)
  let values ← valuesFrom offset symbols
  if padding ≠ [] ∧ (symbols.length < 2 ∨ padding.any (· != pad)) then
    .error (.invalidByte (offset + symbols.length) pad)
  else if quad ≠ [] ∧ symbols.length < 2 then
    .error (.invalidLength (offset + symbols.length))
  else if (symbols.length + padding.length) % 4 ≠ 0 then
    .error .invalidPadding
  else
    match values with
    | [v, w] =>
      if w % 16 = 0 then .ok ((joined v w 0 0).take 1) else .error (.invalidLastSymbol (offset + 1) (symbol w))
    | [v, w, x] =>
      if x % 4 = 0 then .ok ((joined v w x 0).take 2) else .error (.invalidLastSymbol (offset + 2) (symbol x))
    | [v, w, x, y] => .ok (joined v w x y)
    | _ => .ok []

/-- The payload of an unfolded text from `offset` on. A quad that others follow must be whole. -/
def decodeFrom (offset : Nat) : Bytes → Except DecodeError Bytes
  | a :: b :: c :: d :: e :: rest => do
    let v ← valueAt offset a
    let w ← valueAt (offset + 1) b
    let x ← valueAt (offset + 2) c
    let y ← valueAt (offset + 3) d
    let payload ← decodeFrom (offset + 4) (e :: rest)
    return joined v w x y ++ payload
  | quad => decodeLast offset quad

/-- A foreign byte that stands alone after the last whole quad, which is reported before anything else. -/
def strayEnd? (text : Bytes) : Option DecodeError :=
  match text.getLast? with
  | some b =>
    if text.length % 4 = 1 ∧ b ≠ pad ∧ value? b = none then some (.invalidByte (text.length - 1) b) else none
  | none => none

/-- The payload of a text, once the blanks that fold it are dropped. -/
def decode (text : Bytes) : Except DecodeError Bytes :=
  let unfolded := text.filter fun b => !Text.isFold b
  match strayEnd? unfolded with
  | some e => .error e
  | none => decodeFrom 0 unfolded

end StreamAuth.Base64
