/-!
# Nonces

A client nonce is thirty-two letters and digits. Each is drawn from a source of random words by the top six bits of a word;
the two values that name no character are passed over, so every character is equally likely.
-/

namespace StreamAuth.Nonce

/-- The number of characters of a nonce. -/
def length : Nat := 32

/-- The characters of a nonce: capitals, small letters, digits. -/
def alphabet : List Char :=
  "ABCDEFGHIJKLMNOPQRSTUVWXYZabcdefghijklmnopqrstuvwxyz0123456789".toList

/-- The character that a word draws, unless the word is passed over. -/
def draw? (word : UInt32) : Option Char :=
  alphabet[(word >>> 26).toNat]?

/-- A nonce and the number of words that were drawn for it. -/
structure Drawn where
  /-- The characters, in the order in which they were drawn. -/
  characters : List Char
  /-- The number of words drawn, those passed over included. -/
  words : Nat
  deriving DecidableEq, Repr

/-- The nonce as text. -/
def Drawn.text (d : Drawn) : String :=
  String.ofList d.characters

/-- Draws `missing` characters from the words of `source`, as far as they last. -/
def drawFrom : (missing : Nat) → (source : List UInt32) → Drawn
  | 0, _ => ⟨[], 0⟩
  | _, [] => ⟨[], 0⟩
  | missing + 1, word :: rest =>
    match draw? word with
    | some c =>
      let d := drawFrom missing rest
      ⟨c :: d.characters, d.words + 1⟩
    | none =>
      let d := drawFrom (missing + 1) rest
      ⟨d.characters, d.words + 1⟩

/-- A nonce from words that are repeated over and over. Each round of the words yields a character at least, unless none of
them ever does, so as many rounds as the nonce has characters are enough. -/
def ofCycle (words : List UInt32) : Drawn :=
  drawFrom length (List.replicate length words).flatten

end StreamAuth.Nonce
