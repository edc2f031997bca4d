import Std.Data.HashMap
import StreamAuth.Xml.Element
import StreamAuth.Xml.Event
import StreamAuth.Xml.Reference

/-!
# Reading a document

The tree of a document is built from its events. The elements that are still open wait on a stack, innermost first; an end
tag hands the innermost of them to its parent. The first element that closes with none left open is the document, and
whatever follows it is not looked at.
-/

namespace StreamAuth.Xml

/-! ## Attributes -/

/-- An attribute that has been read from the front of a tag. -/
structure Attribute where
  /-- The key as written. -/
  key : String
  /-- The offset of the key in the tag. -/
  place : Nat
  /-- The value between its quotes, references unresolved. -/
  value : List Char
  /-- The offset in the tag after the closing quote. -/
  stop : Nat
  /-- What stands after the closing quote. -/
  rest : List Char

/-- Whether a character ends the key that it comes after. -/
def endsKey (c : Char) : Bool :=
  c == '=' || Text.isXmlBlank c

/-- The keys of a tag that have been read, with their places. -/
abbrev SeenKeys := Std.HashMap String Nat

/-- Reads one attribute at `offset` of a tag of `size` bytes; `none` where nothing is left but blanks. `seen` holds the keys
that came before. The first character that is not blank belongs to the key, whatever it is. -/
def readAttribute (size offset : Nat) (seen : SeenKeys) (cs : List Char) :
    Except AttributeFault (Option Attribute) :=
  let place := offset + Utf8.size (cs.takeWhile Text.isXmlBlank)
  match cs.dropWhile Text.isXmlBlank with
  | [] => .ok none
  | initial :: body =>
    let key := initial :: body.takeWhile fun c => !endsKey c
    let afterKey := body.dropWhile fun c => !endsKey c
    let equalsPlace := place + Utf8.size key + Utf8.size (afterKey.takeWhile Text.isXmlBlank)
    match afterKey.dropWhile Text.isXmlBlank with
    | [] => .error (.missingEquals size)
    | equals :: afterEquals =>
      if equals ≠ '=' then .error (.missingEquals equalsPlace)
      else
        match seen[String.ofList key]? with
        | some first => .error (.duplicate place first)
        | none =>
          let quotePlace := equalsPlace + 1 + Utf8.size (afterEquals.takeWhile Text.isXmlBlank)
          match afterEquals.dropWhile Text.isXmlBlank with
          | [] => .error (.missingValue size)
          | quote :: inside =>
            if quote ≠ '"' ∧ quote ≠ '\'' then .error (.unquoted quotePlace)
            else
              let value := inside.takeWhile (· != quote)
              match inside.dropWhile (· != quote) with
              | [] => .error (.unclosedQuote size quote)
              | _ :: rest => .ok (some ⟨String.ofList key, place, value, quotePlace + Utf8.size value + 2, rest⟩)

/-- An attribute takes at least its quotes. -/
theorem length_of_readAttribute {size offset : Nat} {seen : SeenKeys} {cs : List Char} {a : Attribute}
    (h : readAttribute size offset seen cs = .ok (some a)) : a.rest.length < cs.length := by
  unfold readAttribute at h
  simp only at h
  split at h
  · cases h
  · next initial body hb =>
    have lb := (cs.dropWhile_sublist Text.isXmlBlank).length_le
    have lk := (body.dropWhile_sublist fun c => !endsKey c).length_le
    split at h
    · cases h
    · next equals afterEquals he =>
      have le := ((body.dropWhile fun c => !endsKey c).dropWhile_sublist Text.isXmlBlank).length_le
      split at h
      · cases h
      split at h
      · cases h
      split at h
      · cases h
      · next quote inside hq =>
        have lq := (afterEquals.dropWhile_sublist Text.isXmlBlank).length_le
        split at h
        · cases h
        split at h
        · cases h
        · next rest hr =>
          have lr := (inside.dropWhile_sublist (· != quote)).length_le
          cases h
          simp only [hb, he, hq, hr, List.length_cons] at lb le lq lr
          simp only
          omega

/-- The attributes of a tag from `offset` on. Each is read and resolved before the next. -/
def readAttributes (size offset : Nat) (seen : SeenKeys) (cs : List Char) :
    Except Error (List (String × String)) :=
  match _h : readAttribute size offset seen cs with
  | .error fault => .error (.attribute fault)
  | .ok none => .ok []
  | .ok (some a) =>
    match resolve a.value with
    | .error fault => .error (.reference fault)
    | .ok value =>
      ((a.key, String.ofList value) :: ·) <$> readAttributes size a.stop (seen.insert a.key a.place) a.rest
termination_by cs.length
decreasing_by exact length_of_readAttribute _h

/-! ## The tree -/

/-- An element whose end tag is still to come. -/
structure OpenElement where
  /-- The name as written. -/
  name : String
  /-- The attributes in document order. -/
  attributes : List (String × String)
  /-- The texts directly inside the element so far. -/
  text : String := ""
  /-- The elements directly inside the element so far, latest first. -/
  latestFirst : List Element := []
  deriving BEq, Repr, Inhabited

namespace OpenElement

/-- The element that a tag begins, with nothing inside it yet. -/
def ofTag (tag : List Char) : Except Error OpenElement := do
  let name := tagName tag
  let attributes ← readAttributes (Utf8.size tag) (Utf8.size name) ∅ (tag.drop name.length)
  return { name := String.ofList name, attributes }

/-- The element with a further text at its end. -/
def appendText (e : OpenElement) (text : List Char) : OpenElement :=
  { e with text := e.text ++ String.ofList text }

/-- The element with a further child at its end. -/
def appendChild (e : OpenElement) (child : Element) : OpenElement :=
  { e with latestFirst := child :: e.latestFirst }

/-- The element as it is once its end tag has come. -/
def toElement (e : OpenElement) : Element :=
  ⟨e.name, e.attributes, e.text, e.latestFirst.reverse⟩

end OpenElement

/-- The elements that are open, innermost first, after an element has been closed inside them; or the document, if none is
open. -/
def close (e : Element) : List OpenElement → Element ⊕ List OpenElement
  | [] => .inl e
  | parent :: outer => .inr (parent.appendChild e :: outer)

/-- The open elements after a text inside the innermost of them. A text outside all elements is no part of the tree. -/
def appendText (text : List Char) : List OpenElement → List OpenElement
  | [] => []
  | e :: outer => e.appendText text :: outer

/-- What one event makes of the open elements: the document, or the elements that are open after it. -/
def build (opened : List OpenElement) : Event → Except Error (Element ⊕ List OpenElement)
  | .startTag tag => do
    let e ← OpenElement.ofTag tag
    return .inr (e :: opened)
  | .emptyTag tag => do
    let e ← OpenElement.ofTag tag
    return close e.toElement opened
  | .endTag _ =>
    match opened with
    | [] => .error .strayEndTag
    | e :: outer => .ok (close e.toElement outer)
  | .text content =>
    match opened, resolve content with
    | [], _ => .ok (.inr [])
    | _, .error fault => .error (.reference fault)
    | _, .ok text => .ok (.inr (appendText text opened))
  | .characterData content => .ok (.inr (appendText content opened))
  | .aside => .ok (.inr opened)

/-- The document that a sequence of events builds on the open elements. -/
def buildAll (fault? : Option Error) (opened : List OpenElement) : List Event → Except Error Element
  | [] =>
    match fault? with
    | some fault => .error fault
    | none => .error (if opened.isEmpty then .noRootElement else .unexpectedEnd)
  | event :: rest => do
    match ← build opened event with
    | .inl document => return document
    | .inr opened => buildAll fault? opened rest

/-- The first element of a text, with all that is inside it. -/
def parse (text : String) : Except Error Element :=
  let events := eventsOf text.toList
  buildAll events.fault? [] events.events

end StreamAuth.Xml
