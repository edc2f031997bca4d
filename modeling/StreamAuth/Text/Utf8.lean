/-!
# UTF-8

Text is written to bytes character by character. Bytes are read back in pieces: a character, or a run of bytes that begins
no character. Strict reading stops at the first such run and says where it stands; lenient reading puts U+FFFD in its place.
-/

namespace StreamAuth

/-- Bytes in the order in which the stream carries them. -/
abbrev Bytes := List UInt8

namespace Utf8

/-! ## Writing -/

/-- The bytes of a run of characters. -/
def encode (cs : List Char) : Bytes :=
  cs.flatMap String.utf8EncodeChar

/-- The bytes of a text. -/
def ofString (s : String) : Bytes :=
  encode s.toList

/-- The number of bytes that a run of characters takes. -/
def size (cs : List Char) : Nat :=
  cs.foldr (fun c n => c.utf8Size + n) 0

/-! ## Reading in pieces -/

/-- What stands at one place of a byte string that is read as UTF-8. -/
inductive Piece where
  /-- A whole character. -/
  | char (c : Char)
  /-- So many bytes that no character begins with, whatever follows. -/
  | invalid (length : Nat)
  /-- The input ends inside a character. -/
  | incomplete
  deriving DecidableEq, Repr

/-- A character of which some bytes are still to come. -/
structure Partial where
  /-- The bits read so far. -/
  value : Nat
  /-- The number of bytes read so far. -/
  length : Nat
  /-- The least value of the next byte. -/
  low : UInt8
  /-- The greatest value of the next byte. -/
  high : UInt8
  /-- The number of bytes to come after the next one. -/
  further : Nat

/-- What a first byte alone settles: a piece of its own, or the start of a longer character. The bounds on the second byte
shut out overlong forms, surrogates and values beyond U+10FFFF. -/
def start (b : UInt8) : Piece ⊕ Partial :=
  if b ≤ 0x7F then .inl (.char (Char.ofNat b.toNat))
  else if b < 0xC2 then .inl (.invalid 1)
  else if b ≤ 0xDF then .inr ⟨b.toNat - 0xC0, 1, 0x80, 0xBF, 0⟩
  else if b = 0xE0 then .inr ⟨0, 1, 0xA0, 0xBF, 1⟩
  else if b = 0xED then .inr ⟨0xD, 1, 0x80, 0x9F, 1⟩
  else if b ≤ 0xEF then .inr ⟨b.toNat - 0xE0, 1, 0x80, 0xBF, 1⟩
  else if b = 0xF0 then .inr ⟨0, 1, 0x90, 0xBF, 2⟩
  else if b ≤ 0xF3 then .inr ⟨b.toNat - 0xF0, 1, 0x80, 0xBF, 2⟩
  else if b = 0xF4 then .inr ⟨4, 1, 0x80, 0x8F, 2⟩
  else .inl (.invalid 1)

/-- Whether `b` may come next. -/
def Partial.accepts (p : Partial) (b : UInt8) : Bool :=
  p.low ≤ b && b ≤ p.high

/-- The bits read so far, with the six of an accepted byte. -/
def Partial.extended (p : Partial) (b : UInt8) : Nat :=
  p.value * 64 + (b.toNat - 0x80)

/-- The character begun, after an accepted byte that is not its last. -/
def Partial.next (p : Partial) (b : UInt8) : Partial :=
  ⟨p.extended b, p.length + 1, 0x80, 0xBF, p.further - 1⟩

/-- The pieces of a byte string, from a character that has been begun or from between characters. A byte that cannot continue
the character begun ends it there, and is read again as a first byte. -/
def piecesFrom : Option Partial → Bytes → List Piece
  | none, [] => []
  | some _, [] => [.incomplete]
  | none, b :: rest =>
    match start b with
    | .inl piece => piece :: piecesFrom none rest
    | .inr p => piecesFrom (some p) rest
  | some p, b :: rest =>
    if p.accepts b then
      if p.further = 0 then .char (Char.ofNat (p.extended b)) :: piecesFrom none rest
      else piecesFrom (some (p.next b)) rest
    else .invalid p.length ::
      match start b with
      | .inl piece => piece :: piecesFrom none rest
      | .inr q => piecesFrom (some q) rest

/-- The pieces of a byte string, from left to right. -/
def pieces (bytes : Bytes) : List Piece :=
  piecesFrom none bytes

/-! ## Strict and lenient reading -/

/-- The first place at which a byte string is not UTF-8. -/
structure Fault where
  /-- The number of bytes in front of it. -/
  offset : Nat
  /-- The number of bytes that begin no character; `none` where the input ends inside a character. -/
  length? : Option Nat
  deriving DecidableEq, Repr

/-- A fault in words. -/
def Fault.message : Fault → String
  | ⟨offset, some n⟩ => s!"invalid utf-8 sequence of {n} bytes from index {offset}"
  | ⟨offset, none⟩ => s!"incomplete utf-8 byte sequence from index {offset}"

/-- The characters of a run of pieces that begins at `offset`, if all of them are characters. -/
def Piece.chars (offset : Nat) : List Piece → Except Fault (List Char)
  | [] => .ok []
  | .char c :: rest => (c :: ·) <$> Piece.chars (offset + c.utf8Size) rest
  | .invalid n :: _ => .error ⟨offset, some n⟩
  | .incomplete :: _ => .error ⟨offset, none⟩

/-- The character to show for a piece: U+FFFD where there is none. -/
def Piece.shown : Piece → Char
  | .char c => c
  | _ => '\uFFFD'

/-- The text of a byte string that is UTF-8 throughout. -/
def decode (bytes : Bytes) : Except Fault String :=
  String.ofList <$> Piece.chars 0 (pieces bytes)

/-- The text of a byte string, with U+FFFD for every run of bytes that is not a character. -/
def decodeLossy (bytes : Bytes) : String :=
  String.ofList ((pieces bytes).map Piece.shown)

/-- The text of a byte string, if it is UTF-8. -/
def decode? (bytes : Bytes) : Option String :=
  (decode bytes).toOption

end Utf8

end StreamAuth
