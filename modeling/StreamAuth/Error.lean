import StreamAuth.Base64
import StreamAuth.SystemError
import StreamAuth.Xml.Error

/-!
# Why an exchange ends

The causes for which a session, its transport or its configuration fails. Each is fatal to the session that meets it. Data
that is only incomplete is no error.
-/

namespace StreamAuth

/-- What the session waits for. -/
inductive Phase where
  /-- The transport to connect. -/
  | connecting
  /-- The features of the stream. -/
  | awaitingFeatures
  /-- A challenge. -/
  | awaitingChallenge
  /-- Nothing: the session has failed or was closed. -/
  | closed
  deriving DecidableEq, Repr

/-- The name of a phase in reports. -/
def Phase.label : Phase → String
  | connecting => "InitializeStream"
  | awaitingFeatures => "SelectAuthenticationMechanism"
  | awaitingChallenge => "DecodeBase64Challenge"
  | closed => "Closed"

/-- Why a complete stanza cannot be read. -/
inductive StanzaFault where
  /-- The stanza is not UTF-8. -/
  | notUtf8 (fault : Utf8.Fault)
  /-- The features are not UTF-8. -/
  | featuresNotUtf8 (fault : Utf8.Fault)
  /-- The stanza is not well-formed. -/
  | xml (fault : Xml.Error)
  /-- The stanza is another element than a challenge. -/
  | notAChallenge (name : String)
  deriving DecidableEq, Repr

/-- A fault of a stanza in words. -/
def StanzaFault.message : StanzaFault → String
  | notUtf8 fault => "span is not UTF-8: " ++ fault.message
  | featuresNotUtf8 fault => "features are not UTF-8: " ++ fault.message
  | xml fault => fault.message
  | notAChallenge name => "expected <challenge>, got <" ++ name ++ ">"

/-- An event that the session cannot take in its phase. -/
inductive MisplacedEvent where
  /-- The transport connected again. -/
  | connected (phase : Phase)
  /-- So many bytes arrived. -/
  | received (count : Nat) (phase : Phase)
  /-- A challenge came before a mechanism was announced. -/
  | challenge
  deriving DecidableEq, Repr

/-- A misplaced event in words. -/
def MisplacedEvent.message : MisplacedEvent → String
  | connected phase => "connect event in state " ++ phase.label
  | received count phase => s!"{count} bytes received in state " ++ phase.label
  | challenge => "challenge before mechanism selection"

/-- A wait that took longer than it may. -/
inductive Wait where
  /-- For a connection to an address. -/
  | connection (address : String)
  /-- For data, so many seconds. -/
  | data (seconds : UInt64) (phase : Phase)
  deriving DecidableEq, Repr

/-- A wait in words. -/
def Wait.message : Wait → String
  | connection address => "connecting to " ++ address
  | data seconds phase => s!"no data within {seconds}s in state " ++ phase.label

/-- What a transport reports when it fails. -/
inductive TransportFault where
  /-- No connection to an address could be made. -/
  | unreachable (address : String) (cause : SystemError)
  /-- The peer ended the stream. -/
  | closedByPeer
  /-- A read failed. -/
  | read (cause : SystemError)
  /-- A reason in the transport's own words. -/
  | other (reason : String)
  deriving DecidableEq, Repr

/-- A fault of a transport in words. -/
def TransportFault.message : TransportFault → String
  | unreachable address cause => "Failed to connect to " ++ address ++ ": " ++ cause.message
  | closedByPeer => "connection closed by peer"
  | read cause => cause.message
  | other reason => reason

/-- Why a file gives no text. -/
inductive FileFault where
  /-- The file cannot be read. -/
  | unreadable (cause : SystemError)
  /-- The file is not UTF-8. -/
  | notText
  /-- No file can have such a name: there is a NUL in it. -/
  | impossibleName
  deriving DecidableEq, Repr

/-- A fault of a file in words. -/
def FileFault.message : FileFault → String
  | unreadable cause => cause.message
  | notText => "stream did not contain valid UTF-8"
  | impossibleName => "file name contained an unexpected NUL byte"

/-- What is wrong with a configuration. -/
inductive ConfigFault where
  /-- The file cannot be read. -/
  | file (path : String) (fault : FileFault)
  /-- The file is not TOML, or a value in it does not fit. -/
  | contents
  /-- There is no domain to connect to. -/
  | noHost
  /-- There is no user name. -/
  | noUsername
  deriving DecidableEq, Repr

/-- A fault of a configuration in words. -/
def ConfigFault.message : ConfigFault → String
  | file path fault => "Failed to read config file " ++ path ++ ": " ++ fault.message
  | contents => "invalid configuration file"
  | noHost => "server host is not set"
  | noUsername => "username is not set"

/-- Why an exchange ends. -/
inductive Error where
  /-- A complete stanza cannot be read. -/
  | malformed (fault : StanzaFault)
  /-- A challenge is not encoded as it must be. -/
  | badEncoding (cause : Base64.DecodeError)
  /-- The server offers no mechanism that the client announces. -/
  | nothingInCommon (offered : List String)
  /-- A name that is of no mechanism. -/
  | unknownMechanism (name : String)
  /-- The server refused the authentication. -/
  | rejected (condition : String)
  /-- The server ended the stream. -/
  | streamError (condition : String)
  /-- The transport failed. -/
  | transport (fault : TransportFault)
  /-- Nothing happened for too long. -/
  | timeout (wait : Wait)
  /-- An event came at the wrong time. -/
  | misplaced (event : MisplacedEvent)
  /-- The configuration does not serve. -/
  | config (fault : ConfigFault)
  /-- A write or a shutdown failed. -/
  | system (cause : SystemError)
  deriving DecidableEq, Repr

/-- An error in words. -/
def Error.message : Error → String
  | malformed fault => "XML parse error: " ++ fault.message
  | badEncoding cause => "Base64 decode error: " ++ cause.message
  | nothingInCommon offered =>
    "Unsupported mechanism: server offers [" ++ ", ".intercalate offered ++
      "], only SCRAM-SHA-1 and DIGEST-MD5 are supported"
  | unknownMechanism name => "Unsupported mechanism: " ++ name
  | rejected condition => "Authentication rejected: " ++ condition
  | streamError condition => "Stream error: " ++ condition
  | transport fault => "Transport error: " ++ fault.message
  | timeout wait => "Timed out: " ++ wait.message
  | misplaced event => "Invalid state: " ++ event.message
  | config fault => "Config error: " ++ fault.message
  | system cause => "IO error: " ++ cause.message

/-- The error that brought an error about, in words, where it is another. -/
def Error.cause? : Error → Option String
  | badEncoding cause => some cause.message
  | system cause => some cause.message
  | _ => none

end StreamAuth
