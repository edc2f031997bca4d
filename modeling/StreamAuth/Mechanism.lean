import Std.Data.TreeSet

/-!
# Mechanisms

The ways of authenticating that the client knows, their names on the wire, and the choice among those that a server offers:
the strongest that both sides know, and PLAIN where there is none.
-/

namespace StreamAuth

/-- A way of authenticating. -/
inductive Mechanism where
  /-- SCRAM with SHA-1. -/
  | scramSha1
  /-- DIGEST with MD5. -/
  | digestMd5
  /-- The fallback, which the client never announces. -/
  | plain
  deriving DecidableEq, Repr

/-- The names that a server offers, each once, in the order of their bytes. -/
abbrev Offer := Std.TreeSet String

namespace Mechanism

/-- The name on the wire. -/
def name : Mechanism → String
  | scramSha1 => "SCRAM-SHA-1"
  | digestMd5 => "DIGEST-MD5"
  | plain => "PLAIN"

/-- The short name in reports. -/
def label : Mechanism → String
  | scramSha1 => "Sha1"
  | digestMd5 => "Md5"
  | plain => "None"

/-- All mechanisms, strongest first. -/
def all : List Mechanism := [scramSha1, digestMd5, plain]

/-- Whether the client's announcement carries a first message. -/
def hasInitialResponse (m : Mechanism) : Bool := m == scramSha1

/-- The mechanism that a name or short name stands for, in any case of its letters. -/
def ofName? (name : String) : Option Mechanism :=
  match String.ofList (name.toList.map Char.toUpper) with
  | "SCRAM-SHA-1" | "SHA1" => some scramSha1
  | "DIGEST-MD5" | "MD5" => some digestMd5
  | "PLAIN" | "NONE" => some plain
  | _ => none

/-- The mechanisms that the client announces, strongest first. -/
def preferred : List Mechanism := [scramSha1, digestMd5]

/-- The strongest mechanism of an offer. Offered names count only as they are registered, in capitals. -/
def select (offer : Offer) : Mechanism :=
  (preferred.find? fun m => offer.contains m.name).getD plain

end Mechanism

end StreamAuth
