/-!
# JSON output

Values of JSON and their text over several lines, two blanks to a level. The members of an object are written in the order in
which they are given.
-/

namespace StreamAuth.Text

/-- A value of JSON, as far as reports need them. -/
inductive Json where
  /-- No value. -/
  | null
  /-- A count. -/
  | number (n : Nat)
  /-- A text. -/
  | text (s : String)
  /-- Values by name. -/
  | object (members : List (String × Json))
  deriving Repr

namespace Json

/-- A control character by its number. -/
def controlEscape (c : Char) : List Char :=
  let digits := Nat.toDigits 16 c.toNat
  "\\u".toList ++ List.replicate (4 - digits.length) '0' ++ digits

/-- One character inside quotes. -/
def quotedChar (c : Char) : List Char :=
  match c with
  | '"' => "\\\"".toList
  | '\\' => "\\\\".toList
  | '\x08' => "\\b".toList
  | '\x0c' => "\\f".toList
  | '\n' => "\\n".toList
  | '\r' => "\\r".toList
  | '\t' => "\\t".toList
  | c => if c < ' ' then controlEscape c else [c]

/-- A text in quotes. -/
def quoted (s : String) : String :=
  String.ofList ('"' :: (s.toList.flatMap quotedChar ++ ['"']))

/-- The blanks in front of a line. -/
def margin (level : Nat) : String :=
  String.ofList (List.replicate (2 * level) ' ')

mutual

/-- The text of a value whose lines after the first stand at `level`. -/
def renderAt (level : Nat) : Json → String
  | null => "null"
  | number n => toString n
  | text s => quoted s
  | object [] => "\x7b\x7d"
  | object members => "\x7b\n" ++ ",\n".intercalate (renderMembers (level + 1) members) ++ "\n" ++ margin level ++ "\x7d"

/-- The text of each member of an object, at `level`. -/
def renderMembers (level : Nat) : List (String × Json) → List String
  | [] => []
  | (key, v) :: rest => (margin level ++ quoted key ++ ": " ++ renderAt level v) :: renderMembers level rest

end

/-- The text of a value. -/
def render (j : Json) : String :=
  renderAt 0 j

end Json

end StreamAuth.Text
