import StreamAuth.Client.Negotiate
import StreamAuth.Text.Numeral

/-!
# Settings

What a client is told about the server, the login and the session, with the value that each setting has when nobody sets it.
Settings come in layers: a later layer counts where it departs from the defaults, setting by setting.
-/

namespace StreamAuth

/-- Where the server is. -/
structure ServerSettings where
  /-- The domain, which is also the name to connect to. -/
  host : String := "localhost"
  /-- The port. -/
  port : UInt16 := 5222
  /-- The name of the service. -/
  service : String := "xmpp-client"
  deriving DecidableEq, Repr

/-- Who logs in. -/
structure LoginSettings where
  /-- The user name. -/
  username : String := ""
  /-- The password. -/
  password : String := ""
  deriving DecidableEq

/-- How a session is driven. -/
structure SessionSettings where
  /-- How many seconds a connection attempt may take. -/
  connectTimeout : UInt64 := 10
  /-- How many seconds a read may take. -/
  readTimeout : UInt64 := 30
  /-- How many bytes a read takes at most. -/
  readBufferSize : UInt64 := 4096
  deriving DecidableEq, Repr

/-- All settings. -/
structure Config where
  /-- Where the server is. -/
  server : ServerSettings := {}
  /-- Who logs in. -/
  login : LoginSettings := {}
  /-- How a session is driven. -/
  session : SessionSettings := {}
  deriving DecidableEq

/-- The address of a server. -/
def ServerSettings.address (s : ServerSettings) : String :=
  s.host ++ ":" ++ toString s.port

/-- Login settings in words, without the password. -/
def LoginSettings.describe (l : LoginSettings) : String :=
  "CredentialsConfig \x7b username: " ++ Text.quoted l.username ++ ", password: \"<redacted>\" \x7d"

namespace Config

/-! ## Layers -/

/-- The value of a setting with a layer put on it: the layer's value, unless that is the default. -/
def overlay {α : Type} [DecidableEq α] (unset base layer : α) : α :=
  if layer = unset then base else layer

/-- The settings when nobody sets any. -/
def default : Config := {}

/-- The settings of `base` with those of `layer` put on them. -/
def merge (base layer : Config) : Config where
  server :=
    { host := overlay default.server.host base.server.host layer.server.host
      port := overlay default.server.port base.server.port layer.server.port
      service := overlay default.server.service base.server.service layer.server.service }
  login :=
    { username := overlay default.login.username base.login.username layer.login.username
      password := overlay default.login.password base.login.password layer.login.password }
  session :=
    { connectTimeout :=
        overlay default.session.connectTimeout base.session.connectTimeout layer.session.connectTimeout
      readTimeout := overlay default.session.readTimeout base.session.readTimeout layer.session.readTimeout
      readBufferSize :=
        overlay default.session.readBufferSize base.session.readBufferSize layer.session.readBufferSize }

/-! ## The environment -/

/-- A port in decimal. -/
def port? (s : String) : Option UInt16 :=
  (Text.decimal? UInt16.size s).map UInt16.ofNat

/-- A number of seconds in decimal. -/
def seconds? (s : String) : Option UInt64 :=
  (Text.decimal? UInt64.size s).map UInt64.ofNat

/-- The settings that the environment makes. A number that cannot be read counts as not set. -/
def ofEnvironment (environment : String → Option String) : Config where
  server :=
    { host := (environment "XMPP_SASL_HOST").getD default.server.host
      port := ((environment "XMPP_SASL_PORT").bind port?).getD default.server.port }
  login :=
    { username := (environment "XMPP_SASL_USERNAME").getD default.login.username
      password := (environment "XMPP_SASL_PASSWORD").getD default.login.password }
  session :=
    { readTimeout := ((environment "XMPP_SASL_READ_TIMEOUT").bind seconds?).getD default.session.readTimeout }

/-! ## What settings are for -/

/-- The credentials of a new session. The host must be set, and then the user name. -/
def credentials (c : Config) : Except Error Credentials :=
  if c.server.host.isEmpty then .error (.config .noHost)
  else if c.login.username.isEmpty then .error (.config .noUsername)
  else .ok ⟨c.server.host, c.login.username, c.login.password⟩

/-- The client for a server. -/
def client (c : Config) : Client :=
  ⟨c.server.address, c.session.connectTimeout, c.session.readTimeout, c.session.readBufferSize⟩

end Config

/-! ## Paths -/

/-- A path continued by a relative one. -/
def joinPath (base path : String) : String :=
  if base.isEmpty ∨ base.endsWith "/" then base ++ path else base ++ "/" ++ path

/-- Where the settings are kept: below the user's directory for settings if that is given as an absolute path, and otherwise
below `.config` in the home directory. -/
def Config.defaultPath (settings? : Option String) (home : String) : String :=
  let directory :=
    match settings? with
    | some path => if path.startsWith "/" then path else joinPath home ".config"
    | none => joinPath home ".config"
  joinPath (joinPath directory "xmpp-sasl") "config.toml"

end StreamAuth
