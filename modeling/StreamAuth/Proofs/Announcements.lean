import StreamAuth.Proofs.Answers
import StreamAuth.Proofs.Encoding

/-!
# What an announcement carries

The announcement of a mechanism is read back, as the stanza of a server would be, with nothing in it but what went into it. The
encoded first message stands in the stanza as it is: base64 has none of the characters that markup is made of, so it need not
be escaped (`escape_encodeText`), and no blanks that a reader would cut (`isTrimmed_encodeText`).
-/

namespace StreamAuth

namespace Base64

/-- Markup is not made of the characters of an encoding. -/
theorem escape_encodeText (payload : Bytes) : Xml.escape (encodeText payload).toList = (encodeText payload).toList := by
  have hplain := forall_mem_encodeText (p := fun c => Xml.escapeChar c == [c]) (by decide) (by decide) payload
  calc Xml.escape (encodeText payload).toList
      = ((encodeText payload).toList.map Xml.escapeChar).flatten := rfl
    _ = ((encodeText payload).toList.map fun c => [c]).flatten := by
      rw [List.map_congr_left fun c hc => beq_iff_eq.mp (hplain c hc)]
    _ = (encodeText payload).toList := List.flatMap_singleton' _

/-- An encoding has no blanks. -/
theorem isTrimmed_encodeText (payload : Bytes) : Xml.IsTrimmed (encodeText payload).toList := by
  have hblank := forall_mem_encodeText (p := fun c => !Text.isXmlBlank c) (by decide) (by decide) payload
  simp only [Bool.not_eq_true'] at hblank
  exact ⟨fun c hc => hblank c (List.mem_of_mem_head? hc), fun c hc => hblank c (List.mem_of_getLast? hc)⟩

end Base64

namespace Stanza

/-- The element that an announcement is. -/
def announced (m : Mechanism) (text : String) : Xml.Element :=
  ⟨"auth", [("xmlns", saslNamespace), ("mechanism", m.name)], text, []⟩

theorem toXml_auth_none (m : Mechanism) :
    (auth m none).toXml = "<auth xmlns='" ++ saslNamespace ++ "' mechanism='" ++ m.name ++ "'/>" := rfl

theorem toXml_auth_some (m : Mechanism) (response : String) :
    (auth m (some response)).toXml =
      "<auth xmlns='" ++ saslNamespace ++ "' mechanism='" ++ m.name ++ "'>" ++ response ++ "</auth>" := rfl

theorem isName_auth : Xml.IsName "auth".toList := by decide +kernel

/-- The attributes of an announcement as they are written. -/
theorem writtenAttributes_announced (m : Mechanism) :
    Xml.WrittenAttributes [("xmlns", saslNamespace), ("mechanism", m.name)]
      (" xmlns='" ++ saslNamespace ++ "' mechanism='" ++ m.name ++ "'").toList := by
  have hmechanism : Xml.WrittenAttributes [("mechanism", m.name)] _ := .cons (by decide +kernel) (by simp) (Or.inr rfl) .nil
  have hattributes : Xml.WrittenAttributes [("xmlns", saslNamespace), ("mechanism", m.name)] _ :=
    .cons (by decide +kernel) (by simp) (Or.inr rfl) hmechanism
  have hname : Xml.escape m.name.toList = m.name.toList := by cases m <;> decide +kernel
  have hnamespace : Xml.escape saslNamespace.toList = saslNamespace.toList := by decide +kernel
  rw [hname, hnamespace] at hattributes
  simpa using hattributes

/-- An announcement without a first message is a single tag. -/
theorem written_auth_none (m : Mechanism) : Xml.Written [announced m ""] (auth m none).toXml.toList := by
  have hwritten : Xml.Written [announced m ""] _ := .single isName_auth (writtenAttributes_announced m) .nil
  rw [toXml_auth_none]
  simpa using hwritten

/-- An announcement with a first message is an element with the encoded message as its text. -/
theorem written_auth_some (m : Mechanism) (payload : Bytes) :
    Xml.Written [announced m (Base64.encodeText payload)] (auth m (some (Base64.encodeText payload))).toXml.toList := by
  have hwritten : Xml.Written [announced m (Base64.encodeText payload)] _ :=
    .element isName_auth (writtenAttributes_announced m) (Base64.isTrimmed_encodeText payload) .nil .nil
  rw [Base64.escape_encodeText] at hwritten
  rw [toXml_auth_some]
  simpa using hwritten

/-- The encoded first message of SCRAM. -/
def initialResponse (username nonce : String) : String :=
  Base64.encodeText (Utf8.ofString (Scram.clientFirst username nonce))

/-- Only SCRAM sends its first message along. -/
theorem announce_eq (m : Mechanism) (username nonce : String) :
    announce m username nonce = if m = .scramSha1 then auth m (some (initialResponse username nonce)) else auth m none := by
  cases m <;> rfl

/-- An announcement is read back with what went into it and nothing else: the name `auth`, the namespace of SASL and the name of
the mechanism as its attributes, and no children. Its text is the encoding of the first message if the mechanism is SCRAM, with
the user name and the nonce in it, and empty otherwise. -/
theorem parseSpan_announce (m : Mechanism) (username nonce : String) :
    ∃ text, parseSpan (announce m username nonce).toBytes =
        .ok ⟨"auth", [("xmlns", saslNamespace), ("mechanism", m.name)], text, []⟩ ∧
      (m = .scramSha1 → Base64.decode (Utf8.ofString text) =
        .ok (Utf8.ofString ("n,," ++ "n=" ++ Scram.nameText username ++ ",r=" ++ nonce))) ∧
      (m ≠ .scramSha1 → text = "") := by
  by_cases hm : m = .scramSha1
  · have hmessage : Scram.clientFirst username nonce = "n,," ++ "n=" ++ Scram.nameText username ++ ",r=" ++ nonce := by
      simp only [Scram.clientFirst, Scram.clientFirstBare, Scram.header, String.append_assoc]
    have hdecode : Base64.decode (Utf8.ofString (initialResponse username nonce)) =
        .ok (Utf8.ofString ("n,," ++ "n=" ++ Scram.nameText username ++ ",r=" ++ nonce)) := by
      rw [initialResponse, Base64.ofString_encodeText, Base64.decode_encode, hmessage]
    have hparse := parseSpan_of_written (written_auth_some m (Utf8.ofString (Scram.clientFirst username nonce)))
    refine ⟨initialResponse username nonce, ?_, fun _ => hdecode, fun h => absurd hm h⟩
    rw [announce_eq, if_pos hm]
    exact hparse
  · refine ⟨"", ?_, fun h => absurd h hm, fun _ => rfl⟩
    rw [announce_eq, if_neg hm]
    exact parseSpan_of_written (written_auth_none m)

end Stanza

end StreamAuth
