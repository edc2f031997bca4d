import StreamAuth.Text.Unprintable

/-!
# Quoted text

How a text is shown inside a description: in double quotes, with escapes for the quote, the backslash and all characters that
have no glyph of their own.
-/

namespace StreamAuth.Text

/-- The escape of a character by its number, in hexadecimal. -/
def numberEscape (c : Char) : List Char :=
  "\\u\x7b".toList ++ Nat.toDigits 16 c.toNat ++ "\x7d".toList

/-- One character inside quotes. -/
def quotedChar (c : Char) : List Char :=
  match c with
  | '"' => "\\\"".toList
  | '\\' => "\\\\".toList
  | '\n' => "\\n".toList
  | '\r' => "\\r".toList
  | '\t' => "\\t".toList
  | '\x00' => "\\0".toList
  | c => if c < ' ' ∨ c = '\x7f' ∨ isUnprintable c then numberEscape c else [c]

/-- A text in quotes. -/
def quoted (s : String) : String :=
  String.ofList ('"' :: (s.toList.flatMap quotedChar ++ ['"']))

end StreamAuth.Text
