import StreamAuth.Config.Settings
import StreamAuth.Toml.Document

/-!
# The settings file

Settings are kept in a TOML file with three sections. A section is a table of its settings, or an array with them in the order
in which they are declared. Settings that are missing keep their defaults and unknown ones are passed over, but a value of the
wrong kind, or one that does not fit, spoils the file.
-/

namespace StreamAuth.Config

open Toml (Value)

/-- The values of a section for its settings, in order. A time has none of them. -/
def settingsOf? (names : List String) : Value → Option (List (Option Value))
  | .table _ entries => some (names.map fun name => entries[name]?)
  | .array items => some ((List.range names.length).map fun i => items[i]?)
  | .tables latestFirst => some ((List.range names.length).map fun i => (latestFirst.reverse.map (.table .header))[i]?)
  | .time => some (names.map fun _ => none)
  | _ => none

/-- A text, or the default where there is no value. -/
def textOr (unset : String) : Option Value → Option String
  | none => some unset
  | some (.text s) => some s
  | some _ => none

/-- A whole number from zero to below `bound`, or the default where there is no value. -/
def numberOr (unset bound : Nat) : Option Value → Option Nat
  | none => some unset
  | some (.integer n) => if 0 ≤ n ∧ n < bound then some n.toNat else none
  | some _ => none

/-- The server section. -/
def serverSettings? (section? : Option Value) : Option ServerSettings :=
  match section? with
  | none => some {}
  | some v => do
    match ← settingsOf? ["host", "port", "service"] v with
    | [host, port, service] =>
      return {
        host := ← textOr default.server.host host
        port := .ofNat (← numberOr default.server.port.toNat UInt16.size port)
        service := ← textOr default.server.service service }
    | _ => none

/-- The credentials section. -/
def loginSettings? (section? : Option Value) : Option LoginSettings :=
  match section? with
  | none => some {}
  | some v => do
    match ← settingsOf? ["username", "password"] v with
    | [username, password] =>
      return {
        username := ← textOr default.login.username username
        password := ← textOr default.login.password password }
    | _ => none

/-- The session section. -/
def sessionSettings? (section? : Option Value) : Option SessionSettings :=
  match section? with
  | none => some {}
  | some v => do
    match ← settingsOf? ["connect_timeout_secs", "read_timeout_secs", "read_buffer_size"] v with
    | [connectTimeout, readTimeout, readBufferSize] =>
      let d := default.session
      return {
        connectTimeout := .ofNat (← numberOr d.connectTimeout.toNat UInt64.size connectTimeout)
        readTimeout := .ofNat (← numberOr d.readTimeout.toNat UInt64.size readTimeout)
        readBufferSize := .ofNat (← numberOr d.readBufferSize.toNat UInt64.size readBufferSize) }
    | _ => none

/-- The settings of a TOML text. -/
def ofToml? (text : String) : Option Config := do
  let entries ← Toml.parse? text
  return {
    server := ← serverSettings? entries["server"]?
    login := ← loginSettings? entries["credentials"]?
    session := ← sessionSettings? entries["session"]? }

/-- The settings of a file, by what reading the file at `path` gives. -/
def ofFile (path : String) (contents : Except FileFault Bytes) : Except Error Config :=
  match contents with
  | .error fault => .error (.config (.file path fault))
  | .ok bytes =>
    match Utf8.decode? bytes with
    | none => .error (.config (.file path .notText))
    | some text =>
      match ofToml? text with
      | some config => .ok config
      | none => .error (.config .contents)

end StreamAuth.Config
