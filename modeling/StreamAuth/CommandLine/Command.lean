import StreamAuth.CommandLine.Arguments
import StreamAuth.Config.File

/-!
# Commands

What can be asked on the command line: to negotiate with a server, to replay what a server once sent, to choose a mechanism,
and to encode or decode a payload.
-/

namespace StreamAuth.CommandLine

/-- Where a payload comes from: a file if one is named, else the word given, else the standard input. -/
inductive Source where
  /-- A file. -/
  | file (path : String)
  /-- A word of the command line. -/
  | word (text : String)
  /-- The standard input. -/
  | standardInput
  deriving DecidableEq, Repr

/-- What `connect` is told beyond the settings file and the environment. -/
structure ConnectOptions where
  /-- The settings file to read. -/
  config? : Option String := none
  /-- The domain of the server. -/
  host? : Option String := none
  /-- The port of the server. -/
  port? : Option UInt16 := none
  /-- The user name. -/
  username? : Option String := none
  /-- How many seconds a read may take. -/
  timeout? : Option UInt64 := none
  /-- Whether the result is written as JSON. -/
  json : Bool := false
  deriving DecidableEq, Repr

/-- What `replay` is told. -/
structure ReplayOptions where
  /-- The file with what the server sent. -/
  file : String
  /-- The domain for the stream header. -/
  host : String := "localhost"
  /-- The user name for the announcement. -/
  username : String := "user"
  /-- The nonce; a random one if none is given. -/
  nonce? : Option String := none
  /-- In how many bytes at a time the server's bytes arrive. -/
  chunkSize : Nat := 16
  deriving DecidableEq, Repr

/-- A command. -/
inductive Command where
  /-- Negotiates with a server up to its first challenge. -/
  | connect (options : ConnectOptions)
  /-- Feeds a session with what a server once sent. -/
  | replay (options : ReplayOptions)
  /-- Chooses from the mechanisms offered. -/
  | select (offered : List String)
  /-- Encodes a payload. -/
  | encode (source : Source)
  /-- Decodes a challenge, and shows its parameters if asked to. -/
  | decode (source : Source) (params : Bool)
  /-- Shows the version. -/
  | version
  deriving DecidableEq, Repr

namespace Command

/-! ## Numbers -/

/-- A whole number with an optional sign, below `bound`. It must fit sixty-four bits with a sign in any case. -/
def signedNumber? (bound : Nat) (s : String) : Option Nat :=
  match s.toList with
  | '-' :: digits => do
    let n ← (Text.readNumeral 10 (Nat.pow 2 63 + 1) digits).toOption
    if n = 0 then some 0 else none
  | _ => Text.decimal? bound s

/-- The number that an option gives, if the option is given. -/
def numberOf? (a : Arguments) (name : String) (read? : String → Option Nat) : Except UsageFault (Option Nat) :=
  match a.value? name with
  | none => .ok none
  | some text =>
    match read? text with
    | some n => .ok (some n)
    | none => .error (.invalidNumber name text)

/-! ## Files -/

/-- The name of a file, which must not be empty. -/
def pathOf (name path : String) : Except UsageFault String :=
  if path.isEmpty then .error (.emptyPath name) else .ok path

/-- The file that an option names, if the option is given. -/
def pathOf? (a : Arguments) (name : String) : Except UsageFault (Option String) :=
  (a.value? name).mapM (pathOf name)

/-! ## The commands and their options -/

/-- The options of `connect`. -/
def connectSpecs : List OptionSpec :=
  [{ name := "config", letter? := some 'c' },
   { name := "host" },
   { name := "port", letter? := some 'p' },
   { name := "username", letter? := some 'u' },
   { name := "timeout" },
   { name := "json", takesValue := false },
   { name := "verbose", letter? := some 'v', takesValue := false },
   { name := "json-logs", takesValue := false }]

/-- Reads the words after `connect`. -/
def readConnect (words : List String) : Except UsageFault Command := do
  let a ← Arguments.read connectSpecs (some 0) words
  let port? ← numberOf? a "port" (signedNumber? UInt16.size)
  let timeout? ← numberOf? a "timeout" (Text.decimal? UInt64.size)
  return .connect {
    config? := ← pathOf? a "config"
    host? := a.value? "host"
    port? := port?.map UInt16.ofNat
    username? := a.value? "username"
    timeout? := timeout?.map UInt64.ofNat
    json := a.has "json" }

/-- The options of `replay`. -/
def replaySpecs : List OptionSpec :=
  [{ name := "host" },
   { name := "username", letter? := some 'u' },
   { name := "nonce" },
   { name := "chunk-size" },
   { name := "verbose", letter? := some 'v', takesValue := false }]

/-- Reads the words after `replay`. -/
def readReplay (words : List String) : Except UsageFault Command := do
  let a ← Arguments.read replaySpecs (some 1) words
  let chunkSize? ← numberOf? a "chunk-size" (Text.decimal? (Nat.pow 2 64))
  match a.words with
  | [] => throw (.missingWord "FILE")
  | file :: _ =>
    return .replay {
      file := ← pathOf "FILE" file
      host := (a.value? "host").getD "localhost"
      username := (a.value? "username").getD "user"
      nonce? := a.value? "nonce"
      chunkSize := chunkSize?.getD 16 }

/-- Where the arguments say that the payload comes from. A word of one dash stands for the standard input. -/
def sourceOf (a : Arguments) : Except UsageFault Source := do
  match ← pathOf? a "file", a.words with
  | some path, _ => return .file path
  | none, [] => return .standardInput
  | none, word :: _ => return if word = "-" then .standardInput else .word word

/-- The options of `encode`. -/
def encodeSpecs : List OptionSpec :=
  [{ name := "file", letter? := some 'f' }]

/-- The options of `decode`. -/
def decodeSpecs : List OptionSpec :=
  encodeSpecs ++ [{ name := "params", takesValue := false }]

/-- Whether a word asks for the version: its long name, or a run of letters that begins with its letter. -/
def asksVersion (word : String) : Bool :=
  word == "--version" || word.startsWith "-V"

/-- The command that the words of a command line ask for. -/
def read (words : List String) : Except UsageFault Command :=
  match words with
  | [] => .error .noCommand
  | "connect" :: rest => readConnect rest
  | "replay" :: rest => readReplay rest
  | "select" :: rest => do return .select (← Arguments.read [] none rest).words
  | "encode" :: rest => do return .encode (← sourceOf (← Arguments.read encodeSpecs (some 1) rest))
  | "decode" :: rest => do
    let a ← Arguments.read decodeSpecs (some 1) rest
    return .decode (← sourceOf a) (a.has "params")
  | word :: _ => if asksVersion word then .ok .version else .error (.unknownCommand word)

end Command

end StreamAuth.CommandLine
