import StreamAuth.CommandLine.Run
import StreamAuth.Proofs.Characters

/-!
# Which source a setting comes from

The command line, the environment and the settings file each give some of the settings. What a source gives is kept apart from
the settings that result (`Given`), so that a setting can be asked for by the first source that gives it. The environment is put
over the file as settings in full, in which the default stands for what it does not give; so what it does give counts only where
it departs from the default (`merge_appliedTo`), and a value that another default hides is lost (`Loses`).
-/

namespace StreamAuth

/-! ## What is given -/

/-- What one source says of the settings: a value for each setting that it gives. -/
structure Given where
  host? : Option String := none
  port? : Option UInt16 := none
  service? : Option String := none
  username? : Option String := none
  password? : Option String := none
  connectTimeout? : Option UInt64 := none
  readTimeout? : Option UInt64 := none
  readBufferSize? : Option UInt64 := none

namespace Given

/-- Some settings, with those that are given put in their place. -/
def appliedTo (g : Given) (c : Config) : Config where
  server :=
    { host := g.host?.getD c.server.host
      port := g.port?.getD c.server.port
      service := g.service?.getD c.server.service }
  login :=
    { username := g.username?.getD c.login.username
      password := g.password?.getD c.login.password }
  session :=
    { connectTimeout := g.connectTimeout?.getD c.session.connectTimeout
      readTimeout := g.readTimeout?.getD c.session.readTimeout
      readBufferSize := g.readBufferSize?.getD c.session.readBufferSize }

/-- What the first of two sources gives, and what the second gives where the first gives nothing. -/
def orElse (g later : Given) : Given where
  host? := g.host?.or later.host?
  port? := g.port?.or later.port?
  service? := g.service?.or later.service?
  username? := g.username?.or later.username?
  password? := g.password?.or later.password?
  connectTimeout? := g.connectTimeout?.or later.connectTimeout?
  readTimeout? := g.readTimeout?.or later.readTimeout?
  readBufferSize? := g.readBufferSize?.or later.readBufferSize?

/-- What a source gives that is not the default of its setting. -/
def departing (g : Given) : Given where
  host? := g.host?.filter (· ≠ Config.default.server.host)
  port? := g.port?.filter (· ≠ Config.default.server.port)
  service? := g.service?.filter (· ≠ Config.default.server.service)
  username? := g.username?.filter (· ≠ Config.default.login.username)
  password? := g.password?.filter (· ≠ Config.default.login.password)
  connectTimeout? := g.connectTimeout?.filter (· ≠ Config.default.session.connectTimeout)
  readTimeout? := g.readTimeout?.filter (· ≠ Config.default.session.readTimeout)
  readBufferSize? := g.readBufferSize?.filter (· ≠ Config.default.session.readBufferSize)

/-- The first of two sources comes over the second. -/
theorem orElse_appliedTo (g later : Given) (c : Config) : (g.orElse later).appliedTo c = g.appliedTo (later.appliedTo c) := by
  simp only [appliedTo, orElse, Option.getD_or]

end Given

/-- A setting of a layer that was filled up with the default counts where the layer gave another value. -/
theorem Config.overlay_getD {α : Type} [DecidableEq α] (unset base : α) (given? : Option α) :
    overlay unset base (given?.getD unset) = (given?.filter (· ≠ unset)).getD base := by
  cases given? with
  | none => simp [overlay]
  | some x => by_cases hx : x = unset <;> simp [overlay, hx, Option.filter]

/-- Of a layer that was filled up with defaults, what it gave that departs from them is left. -/
theorem Given.merge_appliedTo (base : Config) (g : Given) : base.merge (g.appliedTo .default) = g.departing.appliedTo base := by
  simp only [Config.merge, appliedTo, departing, Config.overlay_getD]

/-! ## The environment and the command line -/

/-- What the environment gives. A number that cannot be read is not given. -/
def Given.ofEnvironment (environment : String → Option String) : Given where
  host? := environment "XMPP_SASL_HOST"
  port? := (environment "XMPP_SASL_PORT").bind Config.port?
  username? := environment "XMPP_SASL_USERNAME"
  password? := environment "XMPP_SASL_PASSWORD"
  readTimeout? := (environment "XMPP_SASL_READ_TIMEOUT").bind Config.seconds?

/-- The settings of the environment are what it gives, filled up with the defaults. -/
theorem Given.ofEnvironment_appliedTo (environment : String → Option String) :
    Config.ofEnvironment environment = (ofEnvironment environment).appliedTo .default := rfl

namespace CommandLine.ConnectOptions

/-- What the command line gives. -/
def given (o : ConnectOptions) : Given where
  host? := o.host?
  port? := o.port?
  username? := o.username?
  readTimeout? := o.timeout?

/-- The settings with those of the command line are what it gives, over them. -/
theorem apply_eq (o : ConnectOptions) (c : Config) : o.apply c = o.given.appliedTo c := rfl

end CommandLine.ConnectOptions

/-! ## The settings file -/

namespace Config

open Toml (Value)

/-- What a document says of the setting at a place of a section, if it says anything. -/
def stated? (entries : Toml.Entries) (part : String) (names : List String) (place : Nat) : Option Value :=
  (entries[part]?.bind (settingsOf? names)).bind fun values => values[place]?.join

/-- The text that is stated, if it is one. -/
def textOf? : Option Value → Option String
  | some (.text s) => some s
  | _ => none

/-- The number that is stated, if it is one. -/
def numberOf? : Option Value → Option Nat
  | some (.integer n) => some n.toNat
  | _ => none

theorem eq_of_textOr {unset s : String} {v : Option Value} (h : textOr unset v = some s) :
    s = (textOf? v).getD unset := by
  unfold textOr at h
  split at h <;> simp_all [textOf?]

theorem eq_of_numberOr {unset bound n : Nat} {v : Option Value} (h : numberOr unset bound v = some n) :
    n = (numberOf? v).getD unset := by
  unfold numberOr at h
  split at h <;> simp_all [numberOf?]

/-- A port that is stated, or the default. -/
theorem port_of_numberOr {unset : UInt16} {bound n : Nat} {v : Option Value} (h : numberOr unset.toNat bound v = some n) :
    UInt16.ofNat n = ((numberOf? v).map .ofNat).getD unset := by
  have hmap := Option.getD_map UInt16.ofNat unset.toNat (numberOf? v)
  rw [UInt16.ofNat_toNat] at hmap
  rw [eq_of_numberOr h, hmap]

/-- A count that is stated, or the default. -/
theorem count_of_numberOr {unset : UInt64} {bound n : Nat} {v : Option Value} (h : numberOr unset.toNat bound v = some n) :
    UInt64.ofNat n = ((numberOf? v).map .ofNat).getD unset := by
  have hmap := Option.getD_map UInt64.ofNat unset.toNat (numberOf? v)
  rw [UInt64.ofNat_toNat] at hmap
  rw [eq_of_numberOr h, hmap]

end Config

/-- What a document gives. -/
def Given.ofEntries (entries : Toml.Entries) : Given :=
  let server := Config.stated? entries "server" ["host", "port", "service"]
  let login := Config.stated? entries "credentials" ["username", "password"]
  let session := Config.stated? entries "session" ["connect_timeout_secs", "read_timeout_secs", "read_buffer_size"]
  { host? := Config.textOf? (server 0)
    port? := (Config.numberOf? (server 1)).map .ofNat
    service? := Config.textOf? (server 2)
    username? := Config.textOf? (login 0)
    password? := Config.textOf? (login 1)
    connectTimeout? := (Config.numberOf? (session 0)).map .ofNat
    readTimeout? := (Config.numberOf? (session 1)).map .ofNat
    readBufferSize? := (Config.numberOf? (session 2)).map .ofNat }

namespace Config

section

variable {entries : Toml.Entries}

/-- The server section is what it gives, filled up with the defaults. -/
theorem serverSettings_eq {server : ServerSettings} (h : serverSettings? entries["server"]? = some server) :
    server = ((Given.ofEntries entries).appliedTo default).server := by
  simp only [Given.appliedTo, Given.ofEntries, stated?]
  cases hv : entries["server"]? with
  | none =>
    rw [hv] at h
    cases h
    rfl
  | some v =>
    simp only [hv, serverSettings?] at h
    obtain ⟨values, hs, h⟩ := Option.bind_eq_some_iff.mp h
    split at h
    · simp only [Option.bind_eq_bind, Option.bind_eq_some_iff, Option.pure_def, Option.some.injEq] at h
      obtain ⟨host, hhost, port, hport, service, hservice, rfl⟩ := h
      simp [hs, eq_of_textOr hhost, port_of_numberOr hport, eq_of_textOr hservice]
    · cases h

/-- The login section is what it gives, filled up with the defaults. -/
theorem loginSettings_eq {login : LoginSettings} (h : loginSettings? entries["credentials"]? = some login) :
    login = ((Given.ofEntries entries).appliedTo default).login := by
  simp only [Given.appliedTo, Given.ofEntries, stated?]
  cases hv : entries["credentials"]? with
  | none =>
    rw [hv] at h
    cases h
    rfl
  | some v =>
    simp only [hv, loginSettings?] at h
    obtain ⟨values, hs, h⟩ := Option.bind_eq_some_iff.mp h
    split at h
    · simp only [Option.bind_eq_bind, Option.bind_eq_some_iff, Option.pure_def, Option.some.injEq] at h
      obtain ⟨username, husername, password, hpassword, rfl⟩ := h
      simp [hs, eq_of_textOr husername, eq_of_textOr hpassword]
    · cases h

/-- The session section is what it gives, filled up with the defaults. -/
theorem sessionSettings_eq {session : SessionSettings} (h : sessionSettings? entries["session"]? = some session) :
    session = ((Given.ofEntries entries).appliedTo default).session := by
  simp only [Given.appliedTo, Given.ofEntries, stated?]
  cases hv : entries["session"]? with
  | none =>
    rw [hv] at h
    cases h
    rfl
  | some v =>
    simp only [hv, sessionSettings?] at h
    obtain ⟨values, hs, h⟩ := Option.bind_eq_some_iff.mp h
    split at h
    · simp only [Option.bind_eq_bind, Option.bind_eq_some_iff, Option.pure_def, Option.some.injEq] at h
      obtain ⟨connect, hconnect, read, hread, size, hsize, rfl⟩ := h
      simp [hs, count_of_numberOr hconnect, count_of_numberOr hread, count_of_numberOr hsize]
    · cases h

/-- The settings of a text are what its document gives, filled up with the defaults. -/
theorem ofToml_eq {text : String} {c : Config} (h : ofToml? text = some c) :
    ∃ entries, Toml.parse? text = some entries ∧ c = (Given.ofEntries entries).appliedTo default := by
  simp only [ofToml?, Option.bind_eq_bind, Option.bind_eq_some_iff, Option.pure_def, Option.some.injEq] at h
  obtain ⟨entries, hentries, server, hserver, login, hlogin, session, hsession, rfl⟩ := h
  refine ⟨entries, hentries, ?_⟩
  rw [serverSettings_eq hserver, loginSettings_eq hlogin, sessionSettings_eq hsession]

end

end Config

namespace CommandLine

/-- What the settings file gives: nothing if there is none to be read, and otherwise what its document gives. -/
inductive FileGives (s : Surroundings) (config? : Option String) : Given → Prop where
  | nothing : config?.or s.defaultConfig? = none → FileGives s config? {}
  | document {path text : String} {bytes : Bytes} {entries : Toml.Entries} :
      config?.or s.defaultConfig? = some path → s.contents path = .ok bytes → Utf8.decode? bytes = some text →
      Toml.parse? text = some entries → FileGives s config? (.ofEntries entries)

/-- The settings of the file are what it gives, filled up with the defaults. -/
theorem fileGives_of_fileConfig {s : Surroundings} {config? : Option String} {file : Config}
    (h : fileConfig s config? = .ok file) : ∃ document, FileGives s config? document ∧ file = document.appliedTo .default := by
  unfold fileConfig at h
  cases hpath : config?.or s.defaultConfig? with
  | none =>
    rw [hpath] at h
    cases h
    exact ⟨{}, .nothing hpath, rfl⟩
  | some path =>
    simp only [hpath, Config.ofFile] at h
    split at h
    · cases h
    · rename_i bytes hbytes
      split at h
      · cases h
      · rename_i text htext
        split at h
        · rename_i config hconfig
          cases h
          obtain ⟨entries, hentries, rfl⟩ := Config.ofToml_eq hconfig
          exact ⟨_, .document hpath hbytes htext hentries, rfl⟩
        · cases h

end CommandLine

/-! ## Values that are lost -/

/-- A value that is given for a setting is lost: it is the default, nothing comes before it, and what it should come over is
another value. -/
def Lost {α : Type} (unset : α) (first? given? : Option α) (base : α) : Prop :=
  first? = none ∧ given? = some unset ∧ base ≠ unset

/-- What departs from the default is all that is given, unless a value is lost. -/
theorem getD_departing_iff {α : Type} [DecidableEq α] (unset base : α) (first? given? : Option α) :
    (first?.or (given?.filter (· ≠ unset))).getD base = (first?.or given?).getD base ↔ ¬Lost unset first? given? base := by
  unfold Lost
  cases first? with
  | some x => simp
  | none =>
    cases given? with
    | none => simp
    | some x =>
      by_cases hx : x = unset
      · simp [hx, Option.filter]
      · simp [hx, Option.filter]

/-- Of what `given` gives behind `first` and over `base`, the value of some setting is lost. -/
def Given.Loses (first given : Given) (base : Config) : Prop :=
  Lost Config.default.server.host first.host? given.host? base.server.host ∨
    Lost Config.default.server.port first.port? given.port? base.server.port ∨
    Lost Config.default.server.service first.service? given.service? base.server.service ∨
    Lost Config.default.login.username first.username? given.username? base.login.username ∨
    Lost Config.default.login.password first.password? given.password? base.login.password ∨
    Lost Config.default.session.connectTimeout first.connectTimeout? given.connectTimeout? base.session.connectTimeout ∨
    Lost Config.default.session.readTimeout first.readTimeout? given.readTimeout? base.session.readTimeout ∨
    Lost Config.default.session.readBufferSize first.readBufferSize? given.readBufferSize? base.session.readBufferSize

/-- The default hides nothing that is given if and only if no value is lost. -/
theorem Given.appliedTo_departing_iff (first given : Given) (base : Config) :
    (first.orElse given.departing).appliedTo base = (first.orElse given).appliedTo base ↔ ¬first.Loses given base := by
  simp only [appliedTo, orElse, departing, Loses, Config.mk.injEq, ServerSettings.mk.injEq, LoginSettings.mk.injEq,
    SessionSettings.mk.injEq, getD_departing_iff, not_or, and_assoc]

/-! ## The settings that hold -/

namespace CommandLine

variable {s : Surroundings} {o : ConnectOptions} {file : Config}

/-- The settings that hold are what the command line gives, then what the environment gives that departs from the defaults, over
the file. -/
theorem connectConfig_eq (h : fileConfig s o.config? = .ok file) :
    connectConfig s o = .ok ((o.given.orElse (Given.ofEnvironment s.environment).departing).appliedTo file) := by
  rw [Given.orElse_appliedTo, ← Given.merge_appliedTo, ← Given.ofEnvironment_appliedTo, ← ConnectOptions.apply_eq, connectConfig, h]
  rfl

/-- The first source that gives a setting settles it if and only if the environment loses no value. -/
theorem connectConfig_eq_iff (h : fileConfig s o.config? = .ok file) :
    connectConfig s o = .ok ((o.given.orElse (Given.ofEnvironment s.environment)).appliedTo file) ↔
      ¬o.given.Loses (Given.ofEnvironment s.environment) file := by
  rw [connectConfig_eq h, Except.ok.injEq, Given.appliedTo_departing_iff]

/-- Which settings hold, in four parts. Wherever a connection is asked for, and whatever the command line says:
1. The settings of the file are what its document gives, and the defaults where it gives nothing.
2. A setting is as the command line gives it. Where that gives nothing it is as the environment gives it, if that is not the
   default of the setting. Where that gives nothing either it is as in the file.
3. The name of the service, the time for a connection and the size of a read are those of the file.
4. It is always the first of the three that gives a setting if and only if the environment loses no value, that is, it does not
   give the default of a setting that the command line does not give and of which the file has another value. -/
theorem settings_of_connect (s : Surroundings) (o : ConnectOptions) (file : Config)
    (h : fileConfig s o.config? = .ok file) :
    let flags := o.given
    let fromEnvironment := Given.ofEnvironment s.environment
    (∃ document, FileGives s o.config? document ∧ file = document.appliedTo .default) ∧
      connectConfig s o = .ok ((flags.orElse fromEnvironment.departing).appliedTo file) ∧
      (∀ c, connectConfig s o = .ok c →
        c.server.service = file.server.service ∧ c.session.connectTimeout = file.session.connectTimeout ∧
          c.session.readBufferSize = file.session.readBufferSize) ∧
      (connectConfig s o = .ok ((flags.orElse fromEnvironment).appliedTo file) ↔ ¬flags.Loses fromEnvironment file) := by
  intro flags fromEnvironment
  refine ⟨fileGives_of_fileConfig h, connectConfig_eq h, ?_, connectConfig_eq_iff h⟩
  intro c hc
  rw [connectConfig_eq h] at hc
  cases hc
  exact ⟨rfl, rfl, rfl⟩

/-- A settings file that gives a port and a user name. -/
def settingsText : String := "[server]\nport = 5300\n[credentials]\nusername = 'user'\n"

/-- Surroundings with that file, in which the environment gives a host and the default of the port. -/
def layered : Surroundings where
  file _ := .ok (Utf8.ofString settingsText)
  environment name :=
    if name = "XMPP_SASL_HOST" then some "env.example" else if name = "XMPP_SASL_PORT" then some "5222" else none
  peer := { segments := [], ending := .refuse }
  sessionId := "id"
  nonce := "nonce"

theorem fileConfig_layered :
    fileConfig layered (some "c.toml") = .ok { server := { port := 5300 }, login := { username := "user" } } := by
  have hcontents : layered.contents "c.toml" = .ok (Utf8.ofString settingsText) := by
    rw [Surroundings.contents, if_neg (by simp)]
    rfl
  have htext : Utf8.decode? (Utf8.ofString settingsText) = some settingsText := by
    rw [Utf8.decode?, Utf8.ofString, Utf8.decode_encode, String.ofList_toList]
    rfl
  have hdocument : Config.ofToml? settingsText = some { server := { port := 5300 }, login := { username := "user" } } := by
    decide +kernel
  simp only [fileConfig, Option.some_or, hcontents, Config.ofFile, htext, hdocument]

/-- The host is that of the environment, the port that of the file, and the user name that of the command line. -/
theorem settings_of_connect_layered :
    fileConfig layered (some "c.toml") = .ok { server := { port := 5300 }, login := { username := "user" } } ∧
      connectConfig layered { config? := some "c.toml", username? := some "other" } =
        .ok { server := { host := "env.example", port := 5300 }, login := { username := "other" } } := by
  have hsettings := settings_of_connect layered { config? := some "c.toml", username? := some "other" } _ fileConfig_layered
  refine ⟨fileConfig_layered, hsettings.2.1.trans (congrArg Except.ok ?_)⟩
  decide +kernel

/-- It is not so that the first source always settles a setting. The environment gives the port 5222, and as that is the default,
the port of the file holds. -/
theorem settings_of_connect_false :
    ¬∀ (s : Surroundings) (o : ConnectOptions) (file : Config), fileConfig s o.config? = .ok file →
      connectConfig s o = .ok ((o.given.orElse (Given.ofEnvironment s.environment)).appliedTo file) := by
  intro h
  have hfirst := h layered { config? := some "c.toml" } _ fileConfig_layered
  refine (connectConfig_eq_iff fileConfig_layered).mp hfirst (Or.inr (Or.inl ⟨rfl, ?_, ?_⟩)) <;> decide +kernel

end CommandLine

end StreamAuth
