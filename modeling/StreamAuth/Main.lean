import StreamAuth.CommandLine.Run
import StreamAuth.SessionId

/-!
# The program

Finds what the command needs around it, runs the command, and prints what it says. No network can be reached from here, so a
connection attempt finds none.
-/

namespace StreamAuth.CommandLine

/-- The number of an error of the operating system that reading a file met. -/
def errorNumber : IO.Error → Nat
  | .noFileOrDirectory _ code _ => code.toNat
  | .permissionDenied _ code _ => code.toNat
  | .inappropriateType _ code _ => code.toNat
  | _ => 5

/-- The contents of a file. -/
def readFile (path : String) : IO (Except SystemError Bytes) := do
  try
    return .ok (← IO.FS.readBinFile path).toList
  catch e => return .error ⟨errorNumber e⟩

/-- Bytes of the standard input, to its end. -/
partial def readAll (stream : IO.FS.Stream) (read : ByteArray) : IO ByteArray := do
  let more ← stream.read 65536
  if more.isEmpty then return read else readAll stream (read ++ more)

/-- The names of the environment that a command looks at. -/
def variableNames : List String :=
  ["HOME", "XDG_CONFIG_HOME", "XMPP_SASL_HOST", "XMPP_SASL_PORT", "XMPP_SASL_USERNAME", "XMPP_SASL_PASSWORD",
   "XMPP_SASL_READ_TIMEOUT"]

/-- The words that random bytes make, four bytes to each. -/
def wordsOf : Bytes → List UInt32
  | a :: b :: c :: d :: rest =>
    .ofNat (((a.toNat * 256 + b.toNat) * 256 + c.toNat) * 256 + d.toNat) :: wordsOf rest
  | _ => []

end StreamAuth.CommandLine

section

open StreamAuth StreamAuth.CommandLine

/-- Runs the command that the arguments ask for. -/
def main (words : List String) : IO UInt32 := do
  let settings ← variableNames.filterMapM fun name => do return (← IO.getEnv name).map fun value => (name, value)
  let sessionId := SessionId.ofBytes (← IO.getRandomBytes 16).toList
  let nonce := (Nonce.ofCycle (wordsOf (← IO.getRandomBytes 1024).toList)).text
  let command := Command.read words
  let s : Surroundings :=
    { file := fun _ => .error ⟨2⟩
      environment := fun name => settings.lookup name
      peer := { segments := [], ending := .refuse }
      sessionId
      nonce }
  let paths := (command.toOption.map (Command.paths s.environment)).getD []
  let files ← paths.mapM fun path => do return (path, ← readFile path)
  let standardInput ←
    if (command.toOption.map Command.readsStandardInput).getD false then do
      pure (← readAll (← IO.getStdin) .empty).toList
    else pure []
  let result := runWords { s with file := fun path => (files.lookup path).getD (.error ⟨2⟩), standardInput } words
  IO.print result.output
  if let some failure := result.failure? then IO.eprint failure.report
  return .ofNat result.exitCode

end
