import Fproxy.GoConfig.Endpoint

/-!
# Loading the configuration of the Go program

`Load` of `config.go`, behind the flag parser.  `LoadFromFile` unmarshals the file and parses its
endpoint strings, `Load` then overrides the values that have a flag, and `Config.Validate` checks
the section of the mode and fills in the defaults.

* **`parseSections_eq`** — the endpoint strings of both sections are parsed, whatever the flags.
* **`applyFlags_client`**, **`applyFlags_server`** — what the flags and the checks make of the
  section of the mode.
-/

namespace Fproxy.GoConfig

open Fproxy.Fallible Fproxy.Text

/-- `ClientConfig`.  Durations are in nanoseconds. -/
structure ClientConfig where
  listenAddr : String := ""
  servers : List Endpoint := []
  serversRaw : String := ""
  sessionTimeout : ℤ := 0
  deriving DecidableEq

/-- `ServerConfig`. -/
structure ServerConfig where
  listenAddrs : List Endpoint := []
  listenAddrsRaw : String := ""
  targetAddr : String := ""
  dedupWindow : ℤ := 0
  sessionTimeout : ℤ := 0
  deriving DecidableEq

/-- `Config`. -/
structure Config where
  mode : String := ""
  verbose : Bool := false
  client : Option ClientConfig := none
  server : Option ServerConfig := none
  deriving DecidableEq

/-- `DefaultDedupWindow`. -/
def defaultDedupWindow : ℤ := 10000

/-- `DefaultSessionTimeout`. -/
def defaultSessionTimeout : ℤ := 60 * 1000000000

/-- `CLIFlags`. -/
structure CLIFlags where
  configFile : String := ""
  mode : String := ""
  verbose : Bool := false
  listenAddr : String := ""
  servers : String := ""
  listenAddrs : String := ""
  targetAddr : String := ""
  dedupWindow : ℤ := 0
  sessionTimeout : ℤ := 0

/-- The errors of `Load`. -/
inductive LoadError where
  | readFile (err : String)
  | unmarshal (err : String)
  | invalidClientServers (err : EndpointError)
  | invalidServerListenAddrs (err : EndpointError)
  | invalidServersFlag (err : EndpointError)
  | invalidListenAddrsFlag (err : EndpointError)
  | modeRequired
  | invalidMode
  | clientListenRequired
  | clientServersRequired
  | serverListenRequired
  | serverTargetRequired
  | invalidServerAddress (address : String) (err : EndpointError)
  | clientServersDifferentIps
  deriving DecidableEq

/-- An unmarshalled file: the fields with the tag `yaml:"-"` keep their zero values. -/
structure File where
  config : Config
  servers_nil : ∀ client, config.client = some client → client.servers = []
  listenAddrs_nil : ∀ server, config.server = some server → server.listenAddrs = []

section

variable {Ip : Type} [ToLower] (parseIp : String → Option Ip) (sameIp : Option Ip → Option Ip → Bool)

/-- Endpoint strings under the error of the place they are from. -/
def endpointsOr (wrap : EndpointError → LoadError) (raw : String) :
    Except LoadError (List Endpoint) :=
  match parseEndpoints parseIp raw with
  | .error e => .error (wrap e)
  | .ok endpoints => .ok endpoints

/-- The client half of the parsing in `LoadFromFile`. -/
def parseServers : Option ClientConfig → Except LoadError (Option ClientConfig)
  | some client =>
      if client.serversRaw ≠ "" then
        (endpointsOr parseIp .invalidClientServers client.serversRaw).map fun endpoints =>
          some { client with servers := endpoints }
      else .ok (some client)
  | none => .ok none

/-- The server half of the parsing in `LoadFromFile`. -/
def parseListenAddrs : Option ServerConfig → Except LoadError (Option ServerConfig)
  | some server =>
      if server.listenAddrsRaw ≠ "" then
        (endpointsOr parseIp .invalidServerListenAddrs server.listenAddrsRaw).map fun endpoints =>
          some { server with listenAddrs := endpoints }
      else .ok (some server)
  | none => .ok none

/-- The parsing of the endpoint strings in `LoadFromFile`. -/
def parseSections (cfg : Config) : Except LoadError Config := do
  let client ← parseServers parseIp cfg.client
  let server ← parseListenAddrs parseIp cfg.server
  .ok { cfg with client, server }

/-- `LoadFromFile`; `readFile` reads and unmarshals. -/
def loadFromFile (readFile : String → Except LoadError File) (path : String) :
    Except LoadError Config := do
  let file ← readFile path
  parseSections parseIp file.config

/-- The `-servers` flag. -/
def overrideServers (flags : CLIFlags) (client : ClientConfig) : Except LoadError ClientConfig :=
  if flags.servers ≠ "" then
    (endpointsOr parseIp .invalidServersFlag flags.servers).map fun endpoints =>
      { client with servers := endpoints }
  else .ok client

/-- The client overrides of `Load`, one flag after another. -/
def overrideClientFields (flags : CLIFlags) (client : ClientConfig) :
    Except LoadError ClientConfig := do
  let client :=
    if flags.listenAddr ≠ "" then { client with listenAddr := flags.listenAddr } else client
  let client ← overrideServers parseIp flags client
  .ok (if 0 < flags.sessionTimeout then { client with sessionTimeout := flags.sessionTimeout }
    else client)

/-- The client overrides of `Load`; a missing section is created for them. -/
def overrideClient (flags : CLIFlags) (client : Option ClientConfig) :
    Except LoadError (Option ClientConfig) :=
  if flags.listenAddr ≠ "" ∨ flags.servers ≠ "" ∨ 0 < flags.sessionTimeout then
    (overrideClientFields parseIp flags (client.getD {})).map some
  else .ok client

/-- The `-listen-addrs` flag. -/
def overrideListenAddrs (flags : CLIFlags) (server : ServerConfig) :
    Except LoadError ServerConfig :=
  if flags.listenAddrs ≠ "" then
    (endpointsOr parseIp .invalidListenAddrsFlag flags.listenAddrs).map fun endpoints =>
      { server with listenAddrs := endpoints }
  else .ok server

/-- The server overrides of `Load`, one flag after another. -/
def overrideServerFields (flags : CLIFlags) (server : ServerConfig) :
    Except LoadError ServerConfig := do
  let server ← overrideListenAddrs parseIp flags server
  let server :=
    if flags.targetAddr ≠ "" then { server with targetAddr := flags.targetAddr } else server
  let server :=
    if 0 < flags.dedupWindow then { server with dedupWindow := flags.dedupWindow } else server
  .ok (if 0 < flags.sessionTimeout then { server with sessionTimeout := flags.sessionTimeout }
    else server)

/-- The server overrides of `Load`; a missing section is created for them. -/
def overrideServer (flags : CLIFlags) (server : Option ServerConfig) :
    Except LoadError (Option ServerConfig) :=
  if flags.listenAddrs ≠ "" ∨ flags.targetAddr ≠ "" ∨ 0 < flags.dedupWindow ∨
      0 < flags.sessionTimeout then
    (overrideServerFields parseIp flags (server.getD {})).map some
  else .ok server

/-- The default window that `Load` sets before it validates. -/
def ServerConfig.withWindow (server : ServerConfig) : ServerConfig :=
  if server.dedupWindow ≤ 0 then { server with dedupWindow := defaultDedupWindow } else server

/-- The host of a server in `Validate`. -/
def serverIp (e : Endpoint) : Except LoadError (Option Ip) :=
  match parseHostIp parseIp e.address with
  | .error err => .error (.invalidServerAddress e.address err)
  | .ok ip => .ok ip

/-- The loop of `Validate` over the servers after the first. -/
def checkSameIp (firstIp : Option Ip) : List Endpoint → Except LoadError Unit
  | [] => .ok ()
  | e :: rest => do
      let ip ← serverIp parseIp e
      if sameIp firstIp ip = false then .error .clientServersDifferentIps
      else checkSameIp firstIp rest

/-- All servers have one IP address; a single one is not looked at. -/
def checkServers : List Endpoint → Except LoadError Unit
  | first :: second :: rest => do
      let firstIp ← serverIp parseIp first
      checkSameIp parseIp sameIp firstIp (second :: rest)
  | _ => .ok ()

/-- The client branch of `Validate`. -/
def ClientConfig.validate (client : ClientConfig) : Except LoadError ClientConfig :=
  if client.listenAddr = "" then .error .clientListenRequired
  else if client.servers = [] then .error .clientServersRequired
  else do
    checkServers parseIp sameIp client.servers
    .ok (if client.sessionTimeout ≤ 0 then { client with sessionTimeout := defaultSessionTimeout }
      else client)

/-- The server branch of `Validate`. -/
def ServerConfig.validate (server : ServerConfig) : Except LoadError ServerConfig :=
  if server.listenAddrs = [] then .error .serverListenRequired
  else if server.targetAddr = "" then .error .serverTargetRequired
  else
    let server := server.withWindow
    .ok (if server.sessionTimeout ≤ 0 then { server with sessionTimeout := defaultSessionTimeout }
      else server)

/-- `Config.Validate`; a missing section of the mode is validated as an empty one. -/
def Config.validate (c : Config) : Except LoadError Config :=
  if c.mode = "" then .error .modeRequired
  else if c.mode ≠ "client" ∧ c.mode ≠ "server" then .error .invalidMode
  else if c.mode = "client" then
    ((c.client.getD {}).validate parseIp sameIp).map fun client => { c with client := some client }
  else (c.server.getD {}).validate.map fun server => { c with server := some server }

/-- The mode that is in force. -/
def selectedMode (flags : CLIFlags) (cfg : Config) : String :=
  if flags.mode ≠ "" then flags.mode else cfg.mode

/-- What `Load` does after the file is read. -/
def applyFlags (flags : CLIFlags) (cfg : Config) : Except LoadError Config := do
  let client ← overrideClient parseIp flags cfg.client
  let server ← overrideServer parseIp flags cfg.server
  Config.validate parseIp sameIp
    { mode := selectedMode flags cfg
      verbose := flags.verbose || cfg.verbose
      client
      server := server.map ServerConfig.withWindow }

/-- The file, if one is named. -/
def readConfig (readFile : String → Except LoadError File) (flags : CLIFlags) :
    Except LoadError Config :=
  if flags.configFile ≠ "" then loadFromFile parseIp readFile flags.configFile else .ok {}

/-- `Load`, with the flags parsed. -/
def load (readFile : String → Except LoadError File) (flags : CLIFlags) :
    Except LoadError Config := do
  let cfg ← readConfig parseIp readFile flags
  applyFlags parseIp sameIp flags cfg

end

/-! ### The values in force -/

/-- What the program runs with: its mode, and the values of that section. -/
inductive Effective where
  | client (listenAddr : String) (servers : List Endpoint) (sessionTimeout : ℤ)
  | server (listenAddrs : List Endpoint) (targetAddr : String) (dedupWindow sessionTimeout : ℤ)
  deriving DecidableEq

def ClientConfig.effective (client : ClientConfig) : Effective :=
  .client client.listenAddr client.servers client.sessionTimeout

def ServerConfig.effective (server : ServerConfig) : Effective :=
  .server server.listenAddrs server.targetAddr server.dedupWindow server.sessionTimeout

def Config.effective (c : Config) : Effective :=
  if c.mode = "client" then (c.client.getD {}).effective else (c.server.getD {}).effective

variable {Ip : Type} [ToLower] {parseIp : String → Option Ip} {sameIp : Option Ip → Option Ip → Bool}

theorem parseServers_eq {client : Option ClientConfig}
    (hnil : ∀ c, client = some c → c.servers = []) :
    parseServers parseIp client =
      (endpointsOr parseIp .invalidClientServers (client.getD {}).serversRaw).map fun endpoints =>
        client.map fun c => { c with servers := endpoints } := by
  cases client with
  | none => rfl
  | some c =>
      by_cases hraw : c.serversRaw = ""
      · have hc : ({ c with servers := [] } : ClientConfig) = c := by rw [← hnil c rfl]
        have hempty : endpointsOr parseIp .invalidClientServers "" = .ok [] := rfl
        rw [parseServers, if_neg (not_not.mpr hraw), Option.getD_some, hraw, hempty]
        simp only [Except.map, Option.map_some, hc]
      · rw [parseServers, if_pos hraw]
        rfl

theorem parseListenAddrs_eq {server : Option ServerConfig}
    (hnil : ∀ s, server = some s → s.listenAddrs = []) :
    parseListenAddrs parseIp server =
      (endpointsOr parseIp .invalidServerListenAddrs (server.getD {}).listenAddrsRaw).map
        fun endpoints => server.map fun s => { s with listenAddrs := endpoints } := by
  cases server with
  | none => rfl
  | some s =>
      by_cases hraw : s.listenAddrsRaw = ""
      · have hs : ({ s with listenAddrs := [] } : ServerConfig) = s := by rw [← hnil s rfl]
        have hempty : endpointsOr parseIp .invalidServerListenAddrs "" = .ok [] := rfl
        rw [parseListenAddrs, if_neg (not_not.mpr hraw), Option.getD_some, hraw, hempty]
        simp only [Except.map, Option.map_some, hs]
      · rw [parseListenAddrs, if_pos hraw]
        rfl

/-- A file with its endpoint strings parsed. -/
def Config.withEndpoints (cfg : Config) (servers listenAddrs : List Endpoint) : Config :=
  { cfg with
    client := cfg.client.map fun c => { c with servers }
    server := cfg.server.map fun s => { s with listenAddrs } }

/-- **The endpoint strings of both sections are parsed**, whatever the mode and the flags. -/
theorem parseSections_eq (file : File) :
    parseSections parseIp file.config = (do
      let servers ← endpointsOr parseIp .invalidClientServers
        (file.config.client.getD {}).serversRaw
      let listenAddrs ← endpointsOr parseIp .invalidServerListenAddrs
        (file.config.server.getD {}).listenAddrsRaw
      .ok (file.config.withEndpoints servers listenAddrs)) := by
  unfold parseSections
  rw [parseServers_eq file.servers_nil, parseListenAddrs_eq file.listenAddrs_nil]
  cases endpointsOr parseIp .invalidClientServers (file.config.client.getD {}).serversRaw with
  | error e => rfl
  | ok servers =>
      cases endpointsOr parseIp .invalidServerListenAddrs
        (file.config.server.getD {}).listenAddrsRaw <;> rfl

/-- A missing section has no endpoints to parse. -/
theorem client_withEndpoints {cfg : Config} {servers : List Endpoint}
    (h : parseEndpoints parseIp (cfg.client.getD {}).serversRaw = .ok servers)
    (listenAddrs : List Endpoint) :
    (cfg.withEndpoints servers listenAddrs).client.getD {} =
      { cfg.client.getD {} with servers } := by
  unfold Config.withEndpoints
  cases hc : cfg.client with
  | none =>
      rw [hc] at h
      rw [← Except.ok.inj h]
      rfl
  | some c => rfl

theorem server_withEndpoints {cfg : Config} {listenAddrs : List Endpoint}
    (h : parseEndpoints parseIp (cfg.server.getD {}).listenAddrsRaw = .ok listenAddrs)
    (servers : List Endpoint) :
    (cfg.withEndpoints servers listenAddrs).server.getD {} =
      { cfg.server.getD {} with listenAddrs } := by
  unfold Config.withEndpoints
  cases hs : cfg.server with
  | none =>
      rw [hs] at h
      rw [← Except.ok.inj h]
      rfl
  | some s => rfl

theorem overrideClient_getD (flags : CLIFlags) (client : Option ClientConfig) :
    (overrideClient parseIp flags client).map (fun c => c.getD {}) =
      overrideClientFields parseIp flags (client.getD {}) := by
  unfold overrideClient
  split
  · cases overrideClientFields parseIp flags (client.getD {}) <;> rfl
  · next hnone =>
      obtain ⟨hlisten, hservers, htimeout⟩ : flags.listenAddr = "" ∧ flags.servers = "" ∧
          ¬ 0 < flags.sessionTimeout := by
        simpa only [not_or, not_not] using hnone
      simp only [overrideClientFields, overrideServers, hlisten, hservers, htimeout, ne_eq,
        not_true_eq_false, if_false]
      rfl

theorem overrideServer_getD (flags : CLIFlags) (server : Option ServerConfig) :
    (overrideServer parseIp flags server).map (fun s => s.getD {}) =
      overrideServerFields parseIp flags (server.getD {}) := by
  unfold overrideServer
  split
  · cases overrideServerFields parseIp flags (server.getD {}) <;> rfl
  · next hnone =>
      obtain ⟨hlisten, htarget, hwindow, htimeout⟩ : flags.listenAddrs = "" ∧
          flags.targetAddr = "" ∧ ¬ 0 < flags.dedupWindow ∧ ¬ 0 < flags.sessionTimeout := by
        simpa only [not_or, not_not] using hnone
      simp only [overrideServerFields, overrideListenAddrs, hlisten, htarget, hwindow, htimeout,
        ne_eq, not_true_eq_false, if_false]
      rfl

omit [ToLower] in
theorem withWindow_withWindow (server : ServerConfig) :
    server.withWindow.withWindow = server.withWindow := by
  have hpos : ¬ defaultDedupWindow ≤ 0 := by decide
  unfold ServerConfig.withWindow
  by_cases h : server.dedupWindow ≤ 0
  · rw [if_pos h, if_neg hpos]
  · rw [if_neg h, if_neg h]

omit [ToLower] in
theorem validate_withWindow (server : ServerConfig) :
    server.withWindow.validate = server.validate := by
  have haddrs : server.withWindow.listenAddrs = server.listenAddrs := by
    unfold ServerConfig.withWindow
    split <;> rfl
  have htarget : server.withWindow.targetAddr = server.targetAddr := by
    unfold ServerConfig.withWindow
    split <;> rfl
  unfold ServerConfig.validate
  rw [haddrs, htarget, withWindow_withWindow]

omit [ToLower] in
theorem validate_map_withWindow (server : Option ServerConfig) :
    ((server.map ServerConfig.withWindow).getD {}).validate = (server.getD {}).validate := by
  cases server with
  | none => rfl
  | some s => exact validate_withWindow s

omit [ToLower] in
theorem validate_client {c : Config} (h : c.mode = "client") :
    (c.validate parseIp sameIp).map Config.effective =
      ((c.client.getD {}).validate parseIp sameIp).map ClientConfig.effective := by
  have hempty : ¬ c.mode = "" := by rw [h]; decide
  have hknown : ¬ (c.mode ≠ "client" ∧ c.mode ≠ "server") := fun hc => hc.1 h
  rw [Config.validate, if_neg hempty, if_neg hknown, if_pos h]
  cases (c.client.getD {}).validate parseIp sameIp with
  | error e => rfl
  | ok client =>
      show Except.ok (Config.effective _) = Except.ok client.effective
      rw [Config.effective, if_pos h]
      rfl

omit [ToLower] in
theorem validate_server {c : Config} (h : c.mode = "server") :
    (c.validate parseIp sameIp).map Config.effective =
      (c.server.getD {}).validate.map ServerConfig.effective := by
  have hempty : ¬ c.mode = "" := by rw [h]; decide
  have hclient : ¬ c.mode = "client" := by rw [h]; decide
  have hknown : ¬ (c.mode ≠ "client" ∧ c.mode ≠ "server") := fun hc => hc.2 h
  rw [Config.validate, if_neg hempty, if_neg hknown, if_neg hclient]
  cases (c.server.getD {}).validate with
  | error e => rfl
  | ok server =>
      show Except.ok (Config.effective _) = Except.ok server.effective
      rw [Config.effective, if_neg hclient]
      rfl

/-- **In client mode** the outcome is that of the overridden client section, unless a server flag
is malformed. -/
theorem applyFlags_client {flags : CLIFlags} {cfg : Config}
    (hmode : selectedMode flags cfg = "client") :
    (applyFlags parseIp sameIp flags cfg).map Config.effective =
      (do
        let client ← overrideClientFields parseIp flags (cfg.client.getD {})
        let _ ← overrideServer parseIp flags cfg.server
        (client.validate parseIp sameIp).map ClientConfig.effective) := by
  rw [← overrideClient_getD]
  unfold applyFlags
  cases overrideClient parseIp flags cfg.client with
  | error e => rfl
  | ok client =>
      cases overrideServer parseIp flags cfg.server with
      | error e => rfl
      | ok server => exact validate_client hmode

/-- **In server mode** the outcome is that of the overridden server section, unless a client flag
is malformed. -/
theorem applyFlags_server {flags : CLIFlags} {cfg : Config}
    (hmode : selectedMode flags cfg = "server") :
    (applyFlags parseIp sameIp flags cfg).map Config.effective =
      (do
        let _ ← overrideClient parseIp flags cfg.client
        let server ← overrideServerFields parseIp flags (cfg.server.getD {})
        server.validate.map ServerConfig.effective) := by
  rw [← overrideServer_getD]
  unfold applyFlags
  cases overrideClient parseIp flags cfg.client with
  | error e => rfl
  | ok client =>
      cases overrideServer parseIp flags cfg.server with
      | error e => rfl
      | ok server =>
          have h := @validate_server Ip parseIp sameIp ⟨selectedMode flags cfg,
            flags.verbose || cfg.verbose, client, server.map ServerConfig.withWindow⟩ hmode
          rw [validate_map_withWindow] at h
          exact h

end Fproxy.GoConfig
