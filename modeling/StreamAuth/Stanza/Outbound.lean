import StreamAuth.Base64
import StreamAuth.Mechanism
import StreamAuth.Scram
import StreamAuth.Xml.Reference

/-!
# Stanzas that the client sends

The client opens the stream with a header addressed to a domain, and announces the mechanism it has chosen. The bytes of a
stanza depend on what goes into it and on nothing else.
-/

namespace StreamAuth

/-! ## Namespaces -/

/-- The namespace of a client's stream. -/
def clientNamespace : String := "jabber:client"

/-- The namespace of the elements that frame a stream. -/
def streamNamespace : String := "http://etherx.jabber.org/streams"

/-- The namespace of the elements of authentication. -/
def saslNamespace : String := "urn:ietf:params:xml:ns:xmpp-sasl"

/-! ## Stanzas -/

/-- A stanza that the client sends. -/
inductive Stanza where
  /-- Opens the stream to a domain. -/
  | streamHeader (host : String)
  /-- Announces a mechanism, with the encoded first message if there is one. -/
  | auth (mechanism : Mechanism) (initialResponse? : Option String)
  deriving DecidableEq, Repr

namespace Stanza

/-- The announcement of a mechanism for a user. SCRAM sends its first message along. -/
def announce (mechanism : Mechanism) (username nonce : String) : Stanza :=
  .auth mechanism <|
    if mechanism.hasInitialResponse then
      some (Base64.encodeText (Utf8.ofString (Scram.clientFirst username nonce)))
    else none

/-- A stanza as XML. -/
def toXml : Stanza → String
  | streamHeader host =>
    "<?xml version='1.0'?><stream:stream to='" ++ String.ofList (Xml.escape host.toList) ++ "' xmlns='" ++
      clientNamespace ++ "' xmlns:stream='" ++ streamNamespace ++ "' version='1.0'>"
  | auth mechanism none =>
    "<auth xmlns='" ++ saslNamespace ++ "' mechanism='" ++ mechanism.name ++ "'/>"
  | auth mechanism (some response) =>
    "<auth xmlns='" ++ saslNamespace ++ "' mechanism='" ++ mechanism.name ++ "'>" ++ response ++ "</auth>"

/-- A stanza as it goes over the wire. -/
def toBytes (s : Stanza) : Bytes :=
  Utf8.ofString s.toXml

end Stanza

end StreamAuth
