import Fproxy.Config.Duration
import Fproxy.Config.Endpoint

/-!
# Loading the configuration

`load` of `config.rs`: the values of the command line come before those of the file, the mode
selects the section that is built, and `Config::validate` checks it and fills in the defaults.
Reading and deserialising the file is a parameter.

* **`load_eq_ok`** — what a successful load has parsed and checked.
* **`checkServers_eq_ok`** — several endpoints pass if and only if they give the same host.
-/

set_option linter.dupNamespace false

namespace Fproxy.Config

open Fproxy.Fallible Fproxy.Text

/-- `DEFAULT_DEDUP_WINDOW`. -/
def defaultDedupWindow : ℕ := 10000

/-- `DEFAULT_SESSION_TIMEOUT_SECS`. -/
def defaultSessionTimeoutSecs : UInt64 := 60

/-- `Mode`. -/
inductive Mode where
  | client
  | server
  deriving DecidableEq, Repr

/-- `Mode::from_str`. -/
def Mode.fromStr (s : String) : Option Mode :=
  if toLowercase s = "client" then some .client
  else if toLowercase s = "server" then some .server
  else none

/-- `ClientConfig`. -/
structure ClientConfig where
  listenAddr : String
  servers : List Endpoint
  sessionTimeout : Duration

/-- `ServerConfig`. -/
structure ServerConfig where
  listenAddrs : List Endpoint
  targetAddr : String
  dedupWindow : ℕ
  sessionTimeout : Duration

/-- `Config`. -/
structure Config where
  mode : Mode
  verbose : Bool
  client : Option ClientConfig
  server : Option ServerConfig

/-- `YamlClientConfig`. -/
structure YamlClientConfig where
  listenAddr : Option String := none
  servers : Option String := none
  sessionTimeout : Option String := none

/-- `YamlServerConfig`. -/
structure YamlServerConfig where
  listenAddrs : Option String := none
  targetAddr : Option String := none
  dedupWindow : Option ℕ := none
  sessionTimeout : Option String := none

/-- `YamlConfig`. -/
structure YamlConfig where
  mode : Option String := none
  verbose : Option Bool := none
  client : Option YamlClientConfig := none
  server : Option YamlServerConfig := none

/-- `CliArgs`. -/
structure CliArgs where
  config : Option String := none
  mode : Option String := none
  verbose : Bool := false
  listen : Option String := none
  servers : Option String := none
  listenAddrs : Option String := none
  target : Option String := none
  dedupWindow : Option ℕ := none
  sessionTimeout : Option String := none

/-- A section is built in its own mode only. -/
def onlyIf {α : Type} (own : Bool) (build : Except ConfigError α) :
    Except ConfigError (Option α) :=
  if own then build.map some else .ok none

/-- The zero-means-default rule of `validate`. -/
def Duration.orDefault (d : Duration) : Duration :=
  if d.isZero then .fromSecs defaultSessionTimeoutSecs else d

/-- The timeout of a section before it is validated. -/
def sectionTimeout (cli yaml : Option String) : Duration :=
  ((cli.or yaml).bind parseDuration).getD .zero

section

variable {Ip : Type} [DecidableEq Ip] (parseIp : String → Option Ip)

/-- The loop of `validate` over the endpoints after the first. -/
def checkSameIp (firstIp : Option Ip) : List Endpoint → Except ConfigError Unit
  | [] => .ok ()
  | endpoint :: rest => do
      let ip ← parseHostIp parseIp endpoint.address
      if firstIp ≠ ip then .error .clientServersDifferentIps
      else checkSameIp firstIp rest

/-- All server endpoints have the same IP address; a single one is not looked at. -/
def checkServers : List Endpoint → Except ConfigError Unit
  | first :: second :: rest => do
      let firstIp ← parseHostIp parseIp first.address
      checkSameIp parseIp firstIp (second :: rest)
  | _ => .ok ()

/-- The client branch of `Config::validate`. -/
def ClientConfig.validate (client : ClientConfig) : Except ConfigError ClientConfig :=
  if client.listenAddr = "" then .error .clientListenRequired
  else if client.servers = [] then .error .clientServersRequired
  else do
    checkServers parseIp client.servers
    .ok { client with sessionTimeout := client.sessionTimeout.orDefault }

/-- The server branch of `Config::validate`. -/
def ServerConfig.validate (server : ServerConfig) : Except ConfigError ServerConfig :=
  if server.listenAddrs = [] then .error .serverListenRequired
  else if server.targetAddr = "" then .error .serverTargetRequired
  else .ok { server with
    dedupWindow := if server.dedupWindow = 0 then defaultDedupWindow else server.dedupWindow
    sessionTimeout := server.sessionTimeout.orDefault }

/-- `Config::validate`; a missing section is validated as an empty one. -/
def Config.validate (config : Config) : Except ConfigError Config :=
  match config.mode with
  | .client => do
      let client ← (config.client.getD ⟨"", [], .zero⟩).validate parseIp
      .ok { config with client := some client }
  | .server => do
      let server ← (config.server.getD ⟨[], "", 0, .zero⟩).validate
      .ok { config with server := some server }

/-- The client section that `load` builds. -/
def buildClient (args : CliArgs) (yaml : YamlClientConfig) : Except ConfigError ClientConfig := do
  let servers ← Endpoint.parseList parseIp ((args.servers.or yaml.servers).getD "")
  .ok { listenAddr := normalizeListenAddr ((args.listen.or yaml.listenAddr).getD "")
        servers
        sessionTimeout := sectionTimeout args.sessionTimeout yaml.sessionTimeout }

/-- The server section that `load` builds. -/
def buildServer (args : CliArgs) (yaml : YamlServerConfig) : Except ConfigError ServerConfig := do
  let listenAddrs ← Endpoint.parseList parseIp ((args.listenAddrs.or yaml.listenAddrs).getD "")
  .ok { listenAddrs
        targetAddr := (args.target.or yaml.targetAddr).getD ""
        dedupWindow := (args.dedupWindow.or yaml.dedupWindow).getD 0
        sessionTimeout := sectionTimeout args.sessionTimeout yaml.sessionTimeout }

/-- The mode: the command line comes first. -/
def selectMode (args : CliArgs) (yaml : YamlConfig) : Except ConfigError Mode :=
  match args.mode.or yaml.mode with
  | some s =>
      match Mode.fromStr s with
      | some mode => .ok mode
      | none => .error .invalidMode
  | none => .error .modeRequired

variable (loadFromFile : String → Except ConfigError YamlConfig)

/-- The file, if one is named. -/
def readConfig (args : CliArgs) : Except ConfigError YamlConfig :=
  match args.config with
  | some path => loadFromFile path
  | none => .ok {}

/-- `load`. -/
def load (args : CliArgs) : Except ConfigError Config := do
  let yaml ← readConfig loadFromFile args
  let mode ← selectMode args yaml
  let verbose := args.verbose || yaml.verbose.getD false
  let client ← onlyIf (mode = .client) (buildClient parseIp args (yaml.client.getD {}))
  let server ← onlyIf (mode = .server) (buildServer parseIp args (yaml.server.getD {}))
  Config.validate parseIp ⟨mode, verbose, client, server⟩

end

variable {Ip : Type} [DecidableEq Ip] {parseIp : String → Option Ip}

theorem checkSameIp_eq_ok {firstIp : Option Ip} {es : List Endpoint} :
    checkSameIp parseIp firstIp es = .ok () ↔ ∀ e ∈ es, parseHostIp parseIp e.address = .ok firstIp := by
  induction es with
  | nil => simp [checkSameIp]
  | cons e es ih =>
      rw [checkSameIp, bind_eq_ok, List.forall_mem_cons]
      constructor
      · rintro ⟨ip, hip, h⟩
        split at h
        · exact absurd h (by rintro ⟨⟩)
        · next hsame =>
            rw [not_not.mp hsame]
            exact ⟨hip, fun e' he' => by rw [ih.mp h e' he', not_not.mp hsame]⟩
      · rintro ⟨he, hes⟩
        exact ⟨firstIp, he, by rw [if_neg (by simp), ih]; exact hes⟩

/-- **Several endpoints pass if and only if they give the same host.** -/
theorem checkServers_eq_ok {es : List Endpoint} :
    checkServers parseIp es = .ok () ↔
      es.length ≤ 1 ∨ ∃ ip, ∀ e ∈ es, parseHostIp parseIp e.address = .ok ip := by
  match es with
  | [] => simp [checkServers]
  | [e] => simp [checkServers]
  | first :: second :: rest =>
      have hlen : ¬ (first :: second :: rest).length ≤ 1 := by simp
      rw [or_iff_right hlen, checkServers, bind_eq_ok]
      constructor
      · rintro ⟨ip, hip, h⟩
        exact ⟨ip, List.forall_mem_cons.mpr ⟨hip, checkSameIp_eq_ok.mp h⟩⟩
      · rintro ⟨ip, h⟩
        obtain ⟨hfirst, hrest⟩ := List.forall_mem_cons.mp h
        exact ⟨ip, hfirst, checkSameIp_eq_ok.mpr hrest⟩

theorem ClientConfig.validate_eq_ok {client client' : ClientConfig} :
    client.validate parseIp = .ok client' ↔ client.listenAddr ≠ "" ∧ client.servers ≠ [] ∧
      checkServers parseIp client.servers = .ok () ∧
      client' = { client with sessionTimeout := client.sessionTimeout.orDefault } := by
  unfold ClientConfig.validate
  by_cases hlisten : client.listenAddr = ""
  · simp [hlisten]
  · by_cases hservers : client.servers = []
    · simp [hlisten, hservers]
    · rw [if_neg hlisten, if_neg hservers, bind_eq_ok]
      constructor
      · rintro ⟨_, hcheck, h⟩
        exact ⟨hlisten, hservers, hcheck, (Except.ok.inj h).symm⟩
      · rintro ⟨-, -, hcheck, rfl⟩
        exact ⟨(), hcheck, rfl⟩

theorem ServerConfig.validate_eq_ok {server server' : ServerConfig} :
    server.validate = .ok server' ↔ server.listenAddrs ≠ [] ∧ server.targetAddr ≠ "" ∧
      server' = { server with
        dedupWindow := if server.dedupWindow = 0 then defaultDedupWindow else server.dedupWindow
        sessionTimeout := server.sessionTimeout.orDefault } := by
  unfold ServerConfig.validate
  by_cases hlisten : server.listenAddrs = []
  · simp [hlisten]
  · by_cases htarget : server.targetAddr = ""
    · simp [hlisten, htarget]
    · rw [if_neg hlisten, if_neg htarget, Except.ok.injEq]
      exact ⟨fun h => ⟨hlisten, htarget, h.symm⟩, fun h => h.2.2.symm⟩

variable {loadFromFile : String → Except ConfigError YamlConfig}

/-- **What a successful load has parsed and checked**: the section of its mode. -/
theorem load_eq_ok {args : CliArgs} {config : Config} :
    load parseIp loadFromFile args = .ok config ↔
      ∃ yaml, readConfig loadFromFile args = .ok yaml ∧
        ((∃ built client, selectMode args yaml = .ok .client ∧
            buildClient parseIp args (yaml.client.getD {}) = .ok built ∧
            built.validate parseIp = .ok client ∧
            config = ⟨.client, args.verbose || yaml.verbose.getD false, some client, none⟩) ∨
          (∃ built server, selectMode args yaml = .ok .server ∧
            buildServer parseIp args (yaml.server.getD {}) = .ok built ∧
            built.validate = .ok server ∧
            config = ⟨.server, args.verbose || yaml.verbose.getD false, none, some server⟩)) := by
  unfold load
  simp only [bind_eq_ok]
  constructor
  · rintro ⟨yaml, hyaml, mode, hmode, client, hclient, server, hserver, h⟩
    refine ⟨yaml, hyaml, ?_⟩
    cases mode with
    | client =>
        obtain ⟨built, hbuilt, rfl⟩ := map_eq_ok.mp hclient
        obtain rfl := Except.ok.inj hserver
        obtain ⟨client, hvalid, h⟩ := bind_eq_ok.mp h
        exact Or.inl ⟨built, client, hmode, hbuilt, hvalid, (Except.ok.inj h).symm⟩
    | server =>
        obtain ⟨built, hbuilt, rfl⟩ := map_eq_ok.mp hserver
        obtain rfl := Except.ok.inj hclient
        obtain ⟨server, hvalid, h⟩ := bind_eq_ok.mp h
        exact Or.inr ⟨built, server, hmode, hbuilt, hvalid, (Except.ok.inj h).symm⟩
  · rintro ⟨yaml, hyaml, ⟨built, client, hmode, hbuilt, hvalid, rfl⟩ |
      ⟨built, server, hmode, hbuilt, hvalid, rfl⟩⟩
    · exact ⟨yaml, hyaml, .client, hmode, some built, map_eq_ok.mpr ⟨built, hbuilt, rfl⟩, none, rfl,
        bind_eq_ok.mpr ⟨client, hvalid, rfl⟩⟩
    · exact ⟨yaml, hyaml, .server, hmode, none, rfl, some built, map_eq_ok.mpr ⟨built, hbuilt, rfl⟩,
        bind_eq_ok.mpr ⟨server, hvalid, rfl⟩⟩

end Fproxy.Config
