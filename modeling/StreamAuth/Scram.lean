/-!
# The first SCRAM message

The client opens SCRAM with its user name and a nonce. A comma or an equals sign in the user name is written in hexadecimal,
so that neither can be mistaken for the structure of the message.
-/

namespace StreamAuth.Scram

/-- The header of a client that does not bind the exchange to its channel. -/
def header : String := "n,,"

/-- The written form of one character of a user name. -/
def nameChar : Char → List Char
  | '=' => "=3D".toList
  | ',' => "=2C".toList
  | c => [c]

/-- A user name as the message carries it. -/
def nameText (username : String) : String :=
  String.ofList (username.toList.flatMap nameChar)

/-- The first message without its header. -/
def clientFirstBare (username nonce : String) : String :=
  "n=" ++ nameText username ++ ",r=" ++ nonce

/-- The first message of the client. -/
def clientFirst (username nonce : String) : String :=
  header ++ clientFirstBare username nonce

end StreamAuth.Scram
