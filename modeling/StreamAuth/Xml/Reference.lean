import StreamAuth.Text.Utf8
import StreamAuth.Xml.Error

/-!
# References

Five characters have entities of their own, which stand for them in text and in attribute values. Any character can be given
by its number. Writing uses the five entities only; reading resolves both forms and knows no others.
-/

namespace StreamAuth.Xml

/-! ## Writing -/

/-- The written form of one character. -/
def escapeChar : Char → List Char
  | '<' => "&lt;".toList
  | '>' => "&gt;".toList
  | '&' => "&amp;".toList
  | '\'' => "&apos;".toList
  | '"' => "&quot;".toList
  | c => [c]

/-- A text with entities for the characters that markup is made of. -/
def escape (cs : List Char) : List Char :=
  cs.flatMap escapeChar

/-! ## Reading -/

/-- The character that a predefined entity stands for. -/
def entity? (name : List Char) : Option Char :=
  if name = "lt".toList then some '<'
  else if name = "gt".toList then some '>'
  else if name = "amp".toList then some '&'
  else if name = "apos".toList then some '\''
  else if name = "quot".toList then some '"'
  else none

/-- The character of a number that is not written with a sign. -/
def characterOf (base : Nat) (digits : List Char) : Except CharacterFault Char :=
  if digits.head? = some '+' ∨ digits.head? = some '-' then .error .sign
  else
    match Text.readNumeral base (Nat.pow 2 32) digits with
    | .error fault => .error (.numeral fault)
    | .ok code =>
      if code = 0 then .error .zero
      else if h : code.isValidChar then .ok (Char.ofNatAux code h)
      else .error (.noCharacter code)

/-- The character that a reference stands for, by what is between `&` and `;`; its name begins at `start`. -/
def referent (start : Nat) (name : List Char) : Except ReferenceFault Char :=
  match name with
  | '#' :: 'x' :: digits => (characterOf 16 digits).mapError .character
  | '#' :: digits => (characterOf 10 digits).mapError .character
  | _ =>
    match entity? name with
    | some c => .ok c
    | none => .error (.unknownEntity start (start + Utf8.size name) name)

/-- What stands before the next `;`, and what stands after it, unless a `&` or the end comes first. -/
def cutReference? : List Char → Option (List Char × List Char)
  | [] => none
  | '&' :: _ => none
  | ';' :: rest => some ([], rest)
  | c :: rest => (cutReference? rest).map fun (name, after) => (c :: name, after)

theorem length_of_cutReference? {cs name after : List Char} (h : cutReference? cs = some (name, after)) :
    after.length < cs.length := by
  fun_induction cutReference? cs generalizing name with
  | case1 => cases h
  | case2 => cases h
  | case3 rest => cases h; simp
  | case4 c rest _ _ ih =>
    obtain ⟨p, hp, he⟩ := Option.map_eq_some_iff.mp h
    cases he
    have := ih hp
    simp only [List.length_cons]
    omega

/-- Resolves the references of a text of `size` bytes, from the place that `offset` bytes stand in front of. -/
def resolveFrom (size offset : Nat) (cs : List Char) : Except ReferenceFault (List Char) :=
  match cs with
  | [] => .ok []
  | c :: rest =>
    if c = '&' then
      match h : cutReference? rest with
      | none => .error (.unterminated offset size)
      | some (name, after) => do
        let c ← referent (offset + 1) name
        let cs ← resolveFrom size (offset + Utf8.size name + 2) after
        return c :: cs
    else (c :: ·) <$> resolveFrom size (offset + c.utf8Size) rest
termination_by cs.length
decreasing_by
  · have := length_of_cutReference? h
    simp only [List.length_cons]
    omega
  · simp

/-- A text with its references resolved. -/
def resolve (cs : List Char) : Except ReferenceFault (List Char) :=
  resolveFrom (Utf8.size cs) 0 cs

end StreamAuth.Xml
