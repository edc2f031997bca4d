import Std.Data.TreeMap
import StreamAuth.Stanza.Inbound

/-!
# Challenges

A challenge is a stanza whose text is an encoded payload. Both mechanisms write the payload as entries `key=value` with commas
between them, where a value may stand in quotes; the parameters of a challenge are that view of it.
-/

namespace StreamAuth

/-- The decoded payload of a challenge. -/
structure Challenge where
  /-- The payload. -/
  payload : Bytes
  deriving DecidableEq, Repr

namespace Challenge

/-! ## Decoding -/

/-- The challenge that a complete stanza carries. -/
def decode (span : Bytes) : Except Error Challenge := do
  let root ← parseSpan span
  if root.localName = SpanKind.challenge.tag then
    match Base64.decode (Utf8.ofString root.text) with
    | .ok payload => return ⟨payload⟩
    | .error cause => throw (.badEncoding cause)
  else throw (.malformed (.notAChallenge root.name))

/-- The payload as text, if it is UTF-8. -/
def text? (c : Challenge) : Option String :=
  Utf8.decode? c.payload

/-! ## Parameters -/

/-- A text cut at the commas outside quotes. `quoted` says whether a quote is open. -/
def segments (quoted : Bool) : List Char → List (List Char)
  | [] => [[]]
  | c :: rest =>
    if c = ',' ∧ ¬quoted then [] :: segments false rest
    else
      match segments (if c = '"' then !quoted else quoted) rest with
      | [] => [[c]]
      | first :: others => (c :: first) :: others

/-- The entries of a text: its segments, without those that are blank. -/
def entries (cs : List Char) : List (List Char) :=
  (segments false cs).filter fun s => !s.all Text.isBlank

/-- A value without the quotes around it. A quote without a partner is part of the value. -/
def unquote (value : List Char) : List Char :=
  match value with
  | '"' :: rest => if rest.getLast? = some '"' then rest.dropLast else value
  | _ => value

/-- The key and the value of an entry, which the first equals sign parts. -/
def parameter? (entry : List Char) : Option (String × String) :=
  match entry.dropWhile (· != '=') with
  | [] => none
  | _ :: value =>
    let key := Text.trim Text.isBlank (entry.takeWhile (· != '='))
    some (String.ofList key, String.ofList (unquote (Text.trim Text.isBlank value)))

/-- The parameters of a challenge. A key that is given again has its last value, and an entry without a value is no
parameter. -/
def params (c : Challenge) : Std.TreeMap String String :=
  ((entries (Utf8.decodeLossy c.payload).toList).filterMap parameter?).foldl (fun m (k, v) => m.insert k v) ∅

end Challenge

end StreamAuth
