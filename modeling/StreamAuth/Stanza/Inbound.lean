import StreamAuth.Error
import StreamAuth.Framing
import StreamAuth.Mechanism
import StreamAuth.Xml.Document

/-!
# Stanzas that the client waits for

Four kinds of stanza, each known by the bytes that begin and end it, and what is read off them: the mechanisms that the server
offers, and the condition that a failure or a stream error reports. Attributes may follow the name in a start tag, so the
opening bytes stop short of the `>`.
-/

namespace StreamAuth

/-! ## Kinds -/

/-- A kind of stanza that the client waits for. -/
inductive SpanKind where
  /-- The features of the stream, with the mechanisms that the server offers. -/
  | features
  /-- A challenge of the mechanism. -/
  | challenge
  /-- The refusal of authentication. -/
  | failure
  /-- An error that ends the stream. -/
  | streamError
  deriving DecidableEq, Repr

namespace SpanKind

/-- The qualified name of the stanza. -/
def tag : SpanKind → String
  | features => "stream:features"
  | challenge => "challenge"
  | failure => "failure"
  | streamError => "stream:error"

/-- The bytes that begin and end the stanza. -/
def delimiters (kind : SpanKind) : Delimiters :=
  ⟨Utf8.ofString ("<" ++ kind.tag), Utf8.ofString ("</" ++ kind.tag ++ ">")⟩

end SpanKind

/-! ## Reading -/

/-- The element of a text. -/
def parseText (text : String) : Except Error Xml.Element :=
  (Xml.parse text).mapError fun fault => .malformed (.xml fault)

/-- The element of a complete span. -/
def parseSpan (span : Bytes) : Except Error Xml.Element :=
  match Utf8.decode span with
  | .error fault => .error (.malformed (.notUtf8 fault))
  | .ok text => parseText text

/-! ## Features -/

/-- The mechanism that a name stands for. -/
def Mechanism.parse (name : String) : Except Error Mechanism :=
  match Mechanism.ofName? name with
  | some m => .ok m
  | none => .error (.unknownMechanism name)

/-- The mechanisms that are named anywhere inside an element. -/
def offerOf (root : Xml.Element) : Offer :=
  Std.TreeSet.ofList <|
    (root.preorder.filter fun e => e.localName == "mechanism" && !e.text.isEmpty).map (·.text)

/-- The mechanisms that a text names. -/
def readOffer (text : String) : Except Error Offer :=
  offerOf <$> parseText text

/-- The mechanisms that the features of a stream name. -/
def readFeatures (span : Bytes) : Except Error Offer :=
  match Utf8.decode span with
  | .error fault => .error (.malformed (.featuresNotUtf8 fault))
  | .ok text => readOffer text

/-! ## Conditions -/

/-- The condition that a failure or a stream error reports: its first child that is no text, with the text added to it. -/
def conditionOf (root : Xml.Element) : String :=
  let name := ((root.children.find? (·.localName != "text")).map (·.localName)).getD "undefined-condition"
  match root.find? "text" with
  | some e => if e.text.isEmpty then name else name ++ ": " ++ e.text
  | none => name

end StreamAuth
