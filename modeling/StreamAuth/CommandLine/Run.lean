import StreamAuth.CommandLine.Command
import StreamAuth.Nonce
import StreamAuth.Text.Json

/-!
# Running a command

What a command prints and how it ends, as a function of what it finds around it: files, the standard input, the environment,
the server that a connection reaches, and the random choices. What was printed before an error stands. There is no log: the options
that say what is logged, and how, are read and change nothing.
-/

namespace StreamAuth.CommandLine

/-- What a command finds around it. -/
structure Surroundings where
  /-- The contents of a file. -/
  file : String → Except SystemError Bytes
  /-- The standard input. -/
  standardInput : Bytes := []
  /-- The environment. -/
  environment : String → Option String := fun _ => none
  /-- What a connection attempt meets. -/
  peer : Peer
  /-- The name of the session. -/
  sessionId : String
  /-- The nonce of a session that is given none. -/
  nonce : String

/-- The contents of a file, unless its name is one that no file can have. -/
def Surroundings.contents (s : Surroundings) (path : String) : Except FileFault Bytes :=
  if path.contains '\x00' then .error .impossibleName else (s.file path).mapError .unreadable

/-- Why a command fails. -/
inductive Failure where
  /-- The command line makes no sense. -/
  | usage (fault : UsageFault)
  /-- The exchange, or what is needed for it, failed. -/
  | exchange (error : Error)
  /-- A file cannot be read. -/
  | file (fault : FileFault)
  deriving DecidableEq, Repr

namespace Failure

/-- The exit status of a failure. -/
def exitCode : Failure → Nat
  | usage _ => 2
  | exchange _ | file _ => 1

/-- What a failure reports, with the cause of an error below it. -/
def report : Failure → String
  | usage fault => "error: " ++ fault.message ++ "\n"
  | exchange error =>
    match error.cause? with
    | some cause => "Error: " ++ error.message ++ "\n\nCaused by:\n    " ++ cause ++ "\n"
    | none => "Error: " ++ error.message ++ "\n"
  | file fault => "Error: " ++ fault.message ++ "\n"

end Failure

/-- What a command has printed, and how it failed if it did. -/
structure Result where
  /-- The lines printed. -/
  lines : List String := []
  /-- The failure that ended it. -/
  failure? : Option Failure := none
  deriving DecidableEq, Repr

namespace Result

/-- The text printed. -/
def output (r : Result) : String :=
  String.join (r.lines.map (· ++ "\n"))

/-- The exit status. -/
def exitCode (r : Result) : Nat :=
  (r.failure?.map Failure.exitCode).getD 0

/-- The result with lines printed before it. -/
def after (lines : List String) (r : Result) : Result :=
  { r with lines := lines ++ r.lines }

/-- A failure before anything is printed. -/
def failed (failure : Failure) : Result :=
  { failure? := some failure }

end Result

/-! ## Lines -/

/-- The line for a challenge. -/
def challengeLine (c : Challenge) : String :=
  match c.text? with
  | some text => "S: challenge " ++ text
  | none => s!"S: challenge ({c.payload.length} binary bytes)"

/-- The line for a write. -/
def writeLine (bytes : Bytes) : String :=
  "C: " ++ Utf8.decodeLossy bytes

/-! ## Connecting -/

/-- Whether a path leads to anything. -/
def Surroundings.leadsTo (s : Surroundings) (path : String) : Bool :=
  match s.contents path with
  | .error (.unreadable cause) => cause.code != 2 && cause.code != 20
  | .error _ => false
  | .ok _ => true

/-- Where the settings file is looked for when none is named. -/
def defaultConfigPath (environment : String → Option String) : String :=
  Config.defaultPath (environment "XDG_CONFIG_HOME") ((environment "HOME").getD "")

/-- The settings file that is read when none is named, if there is one. -/
def Surroundings.defaultConfig? (s : Surroundings) : Option String :=
  let path := defaultConfigPath s.environment
  if s.leadsTo path then some path else none

/-- The settings of the file that is named, or else of the usual one, or else none. -/
def fileConfig (s : Surroundings) (config? : Option String) : Except Error Config :=
  match config?.or s.defaultConfig? with
  | some path => Config.ofFile path (s.contents path)
  | none => .ok {}

/-- The settings with what the command line says put over them. -/
def ConnectOptions.apply (o : ConnectOptions) (c : Config) : Config where
  server := { c.server with
    host := o.host?.getD c.server.host
    port := o.port?.getD c.server.port }
  login := { c.login with username := o.username?.getD c.login.username }
  session := { c.session with readTimeout := o.timeout?.getD c.session.readTimeout }

/-- The settings that hold: those of the file, then of the environment, then of the command line. -/
def connectConfig (s : Surroundings) (o : ConnectOptions) : Except Error Config := do
  let file ← fileConfig s o.config?
  return o.apply (file.merge (Config.ofEnvironment s.environment))

/-- The counters of a session as JSON. -/
def statsJson (stats : Session.Stats) : Text.Json :=
  .object
    [("bytes_buffered", .number stats.bytesBuffered),
     ("bytes_received", .number stats.bytesReceived),
     ("bytes_written", .number stats.bytesWritten),
     ("challenges", .number stats.challenges),
     ("mechanism", (stats.mechanism?.map fun m => Text.Json.text m.label).getD .null),
     ("session_id", .text stats.sessionId),
     ("spans_extracted", .number stats.spansExtracted),
     ("state", .text stats.phase.label)]

/-- A negotiation as JSON. -/
def negotiationJson (n : Negotiation) : Text.Json :=
  .object
    [("challenge", (n.challenge.text?.map Text.Json.text).getD .null),
     ("mechanism", .text n.mechanism.name),
     ("params", .object (n.challenge.params.toList.map fun (k, v) => (k, .text v))),
     ("stats", statsJson n.stats)]

/-- The lines for a negotiation. -/
def negotiationLines (n : Negotiation) : List String :=
  ["Mechanism: " ++ n.mechanism.name, challengeLine n.challenge,
   s!"Received {n.stats.bytesReceived} bytes, sent {n.stats.bytesWritten} bytes"]

/-- Negotiates with the server that the settings name. -/
def connect (s : Surroundings) (o : ConnectOptions) : Result :=
  let outcome : Except Error Negotiation := do
    let config ← connectConfig s o
    let credentials ← config.credentials
    (config.client.negotiate s.peer (Session.new s.sessionId credentials s.nonce)).result
  match outcome with
  | .error e => .failed (.exchange e)
  | .ok n => { lines := if o.json then [(negotiationJson n).render] else negotiationLines n }

/-! ## Replaying -/

/-- The lines for one step of a session, and what the session is afterwards; or the error that ended it. -/
def replayStep (session : Session) (event : Event) : Session × Except Error (List String) :=
  let (session, record, result) := session.dispatch event ({} : Recorder)
  (session, result.map fun challenges => record.writes.map writeLine ++ challenges.map challengeLine)

/-- The lines at the end of a replay. -/
def finalLines (session : Session) : List String :=
  ("Final state: " ++ session.phase.label) ::
    if session.buffer.isEmpty then [] else ["Unconsumed: " ++ Utf8.decodeLossy session.buffer.bytes]

/-- Feeds a session with events, up to the first error. -/
def replayEvents (session : Session) : List Event → Result
  | [] => { lines := finalLines session }
  | event :: rest =>
    match replayStep session event with
    | (_, .error e) => .failed (.exchange e)
    | (session, .ok lines) => (replayEvents session rest).after lines

/-- Replays what a server once sent. -/
def replay (s : Surroundings) (o : ReplayOptions) : Result :=
  match s.contents o.file with
  | .error fault => .failed (.file fault)
  | .ok transcript =>
    let session := Session.new s.sessionId ⟨o.host, o.username, ""⟩ (o.nonce?.getD s.nonce)
    replayEvents session (.connected :: (chunks o.chunkSize transcript).map .received)

/-! ## Payloads -/

/-- The text of bytes that were read. -/
def textOf (bytes : Bytes) : Except FileFault String :=
  match Utf8.decode? bytes with
  | some text => .ok text
  | none => .error .notText

/-- The text of a source. -/
def Source.text (s : Surroundings) : Source → Except FileFault String
  | file path => s.contents path >>= textOf
  | word text => .ok text
  | standardInput => textOf s.standardInput

/-- Encodes a payload, without the line breaks at its end. -/
def encode (s : Surroundings) (source : Source) : Result :=
  match source.text s with
  | .error fault => .failed (.file fault)
  | .ok text =>
    { lines := [Base64.encodeText (Utf8.encode (Text.trimEnd (fun c => c == '\r' || c == '\n') text.toList))] }

/-- Decodes a challenge, without the blanks around it. -/
def decode (s : Surroundings) (source : Source) (params : Bool) : Result :=
  match source.text s with
  | .error fault => .failed (.file fault)
  | .ok text =>
    match Base64.decode (Utf8.encode (Text.trim Text.isBlank text.toList)) with
    | .error cause => .failed (.exchange (.badEncoding cause))
    | .ok payload =>
      { lines :=
          if params then (Challenge.params ⟨payload⟩).toList.map fun (k, v) => k ++ " = " ++ v
          else [Utf8.decodeLossy payload] }

/-! ## All commands -/

/-- The files that a command may read. -/
def Command.paths (environment : String → Option String) : Command → List String
  | .connect o => [o.config?.getD (defaultConfigPath environment)]
  | .replay o => [o.file]
  | .encode (.file path) | .decode (.file path) _ => [path]
  | _ => []

/-- Whether a command reads the standard input. -/
def Command.readsStandardInput : Command → Bool
  | .encode .standardInput | .decode .standardInput _ => true
  | _ => false

/-- The name and version of the program. -/
def versionLine : String := "xmpp-sasl 0.1.0"

/-- Runs a command. -/
def run (s : Surroundings) : Command → Result
  | .connect options => connect s options
  | .replay options => replay s options
  | .select offered => { lines := [(Mechanism.select (.ofList offered)).name] }
  | .encode source => encode s source
  | .decode source params => decode s source params
  | .version => { lines := [versionLine] }

/-- Runs the command that the words of a command line ask for. -/
def runWords (s : Surroundings) (words : List String) : Result :=
  match Command.read words with
  | .error fault => .failed (.usage fault)
  | .ok command => run s command

end StreamAuth.CommandLine
