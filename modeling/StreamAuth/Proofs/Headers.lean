import StreamAuth.Proofs.Printing
import StreamAuth.Stanza.Outbound

/-!
# What a stream header carries

A stream header opens the element of the stream and leaves it open for the stanzas of both sides. Once its end tag is written, it
is read back with the host in one attribute, whatever characters the host has, and with the stanzas that were written in between
as its children (`parseText_stream`). So no host makes an attribute or an element more, or ends one early.
-/

namespace StreamAuth.Stanza

/-- The attributes of a stream to a host. -/
def streamAttributes (host : String) : List (String × String) :=
  [("to", host), ("xmlns", clientNamespace), ("xmlns:stream", streamNamespace), ("version", "1.0")]

/-- The element of a stream to a host, with what is inside it. -/
def stream (host : String) (inside : List Xml.Element) : Xml.Element :=
  ⟨"stream:stream", streamAttributes host, "", inside⟩

theorem isName_stream : Xml.IsName "stream:stream".toList := by decide +kernel

theorem keys_streamAttributes (host : String) :
    (streamAttributes host).map Prod.fst = ["to", "xmlns", "xmlns:stream", "version"] := rfl

/-- The attributes of a stream are written as they are printed. -/
theorem writtenAttributes_stream (host : String) :
    Xml.WrittenAttributes (streamAttributes host) (Xml.printAttributes (streamAttributes host)) := by
  refine Xml.writtenAttributes_print ?_ ?_
  · rw [keys_streamAttributes]
    decide +kernel
  · rw [keys_streamAttributes]
    decide

theorem toXml_streamHeader (host : String) :
    (streamHeader host).toXml =
      "<?xml version='1.0'?><stream:stream to='" ++ String.ofList (Xml.escape host.toList) ++ "' xmlns='" ++ clientNamespace ++
        "' xmlns:stream='" ++ streamNamespace ++ "' version='1.0'>" := rfl

/-- A header is a declaration and the start tag of the stream. Of the attributes, the host alone has characters to escape. -/
theorem toList_toXml_streamHeader (host : String) :
    (streamHeader host).toXml.toList =
      '<' :: ('?' :: "xml version='1.0'".toList ++ "?>".toList ++
        ('<' :: ("stream:stream".toList ++ Xml.printAttributes (streamAttributes host)) ++ ['>'])) := by
  have hversion : Xml.escape ['1', '.', '0'] = ['1', '.', '0'] := by decide +kernel
  have hclient : Xml.escape clientNamespace.toList = clientNamespace.toList := by decide +kernel
  have hstream : Xml.escape streamNamespace.toList = streamNamespace.toList := by decide +kernel
  simp [toXml_streamHeader, streamAttributes, Xml.printAttributes, hversion, hclient, hstream]

/-- A header with elements and an end tag behind it is a declaration and the element of the stream. -/
theorem toList_stream (host : String) (inside : List Char) :
    ((streamHeader host).toXml ++ String.ofList inside ++ "</stream:stream>").toList =
      '<' :: ('?' :: "xml version='1.0'".toList ++ "?>".toList ++
        ('<' :: ("stream:stream".toList ++ Xml.printAttributes (streamAttributes host)) ++
          '>' :: (Xml.escape "".toList ++ inside ++ '<' :: '/' :: "stream:stream".toList ++ ['>']) ++ [])) := by
  rw [String.toList_append, String.toList_append, String.toList_ofList, toList_toXml_streamHeader]
  simp [Xml.escape]

/-- A stream is read as its element, whatever its host is, with the elements that are written in it as the children. -/
theorem parseText_stream (host : String) {row : List Xml.Element} {inside : List Char} (h : Xml.Written row inside) :
    parseText ((streamHeader host).toXml ++ String.ofList inside ++ "</stream:stream>") = .ok (stream host row) := by
  have hdeclaration : ¬"?>".toList <:+: '?' :: "xml version='1.0'".toList := by decide +kernel
  have hwritten : Xml.Written [stream host row] _ := .element isName_stream (writtenAttributes_stream host) (by decide) h .nil
  have hparse := Xml.parse_declared hdeclaration hwritten []
  rw [List.append_nil, ← toList_stream, String.ofList_toList] at hparse
  rw [parseText, hparse]
  rfl

/-- A stream header in two parts. Whatever the host is:
1. With its end tag behind it, the header is read as an element of the stream that has the host, the two namespaces and the
   version as its attributes, in this order, and neither text nor children.
2. It is the header of no other host. -/
theorem parseText_streamHeader (host : String) :
    parseText ((streamHeader host).toXml ++ "</stream:stream>") =
        .ok ⟨"stream:stream",
          [("to", host), ("xmlns", "jabber:client"), ("xmlns:stream", "http://etherx.jabber.org/streams"), ("version", "1.0")],
          "", []⟩ ∧
      ∀ other, (streamHeader host).toXml = (streamHeader other).toXml ↔ host = other := by
  have hread : ∀ name, parseText ((streamHeader name).toXml ++ "</stream:stream>") = .ok (stream name []) := by
    intro name
    have hstream := parseText_stream name .nil
    rwa [String.ofList_nil, String.append_empty] at hstream
  refine ⟨hread host, fun other => ⟨fun h => ?_, fun h => by rw [h]⟩⟩
  have hsame : stream host [] = stream other [] := by
    refine Except.ok.inj (ε := Error) ?_
    rw [← hread host, h, hread other]
  injection hsame with _ hattributes
  injection hattributes with hto
  exact (Prod.mk.inj hto).2

end StreamAuth.Stanza
