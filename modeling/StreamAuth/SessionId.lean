import StreamAuth.Text.Utf8

/-!
# Session identifiers

A session is named in reports by sixteen random bytes, written in hexadecimal as a random identifier: in groups of eight, four,
four, four and twelve digits, with the version and the variant marked in the third and fourth group.
-/

namespace StreamAuth.SessionId

/-- The two hexadecimal digits of a byte. -/
def byteDigits (b : UInt8) : List Char :=
  [Nat.digitChar (b.toNat / 16), Nat.digitChar (b.toNat % 16)]

/-- The byte that marks the version: its upper digit is four. -/
def versionByte (b : UInt8) : UInt8 := .ofNat (0x40 + b.toNat % 0x10)

/-- The byte that marks the variant: its two upper bits are one and zero. -/
def variantByte (b : UInt8) : UInt8 := .ofNat (0x80 + b.toNat % 0x40)

/-- The identifier of sixteen random bytes. Bytes that are missing count as zero. -/
def ofBytes (random : Bytes) : String :=
  let byte (i : Nat) : UInt8 := random.getD i 0
  let group (places : List Nat) : List Char := places.flatMap fun i => byteDigits (byte i)
  String.ofList <|
    group [0, 1, 2, 3] ++ ['-'] ++ group [4, 5] ++ ['-'] ++ byteDigits (versionByte (byte 6)) ++ group [7] ++ ['-'] ++
      byteDigits (variantByte (byte 8)) ++ group [9] ++ ['-'] ++ group [10, 11, 12, 13, 14, 15]

end StreamAuth.SessionId
