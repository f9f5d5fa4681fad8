import Fproxy.Config.ServerAddress
import Fproxy.Config.Timeout
import Fproxy.GoConfig.Compatibility
import Fproxy.GoConfig.Override

/-!
# A configuration of the Go program in the Rust program

The rewrite keeps the flags and the configuration file.  The programs read them differently: the Go
program takes an empty string for a missing value and parses the endpoints of both sections, the
Rust program takes the first value that is there and parses those of its mode.

* `FlagsFor`, `FileFor` — the same flags and the same file, as each program sees them.  A flag is
  left out, or given with a text that is not empty and a number that is positive: an empty or zero
  flag is a missing one for the Go program, and a value for the Rust program.
* `endpoints_migrate` — the endpoints that the Go program reads are read by the Rust program, with
  their addresses normalised.
* **`go_configuration_loads_in_rust`** — what the Go program accepts, the Rust program runs with
  the same values, unless its check of the servers tells their hosts apart.  The hosts that
  `net.ParseIP` accepts are taken to be accepted by the parser of `IpAddr`.
-/

namespace Fproxy.GoConfig

open Fproxy.Config Fproxy.Fallible Fproxy.Text

/-! ### The same input -/

/-- A string flag, which is empty for the Go program if it is not given. -/
def given (s : String) : Option String := if s = "" then none else some s

/-- A timeout flag that is written in the notation of `parse_duration`, or not given. -/
def TimeoutFlag (timeout : ℤ) (text : Option String) : Prop :=
  (timeout ≤ 0 ∧ text = none) ∨
    ∃ s d, text = some s ∧ parseDuration s = some d ∧ 0 < timeout ∧ d.toNanos = timeout.toNat

/-- A timeout of the file that both programs read alike. -/
def TimeoutValue (timeout : ℤ) (text : Option String) : Prop :=
  ((text.bind parseDuration).getD .zero).toNanos = timeout.toNat

/-- The flags of the Go program as arguments of the Rust program.  A flag that the Go program takes
for a missing one, because it is empty or not positive, is left out: given to the Rust program, it
would count as a value, and replace that of the file. -/
structure FlagsFor (flags : CLIFlags) (args : CliArgs) : Prop where
  config : args.config = given flags.configFile
  mode : args.mode = given flags.mode
  verbose : args.verbose = flags.verbose
  listen : args.listen = given flags.listenAddr
  servers : args.servers = given flags.servers
  listenAddrs : args.listenAddrs = given flags.listenAddrs
  target : args.target = given flags.targetAddr
  dedupWindow : args.dedupWindow =
    if 0 < flags.dedupWindow then some flags.dedupWindow.toNat else none
  sessionTimeout : TimeoutFlag flags.sessionTimeout args.sessionTimeout

/-- A client section that both programs have read. -/
structure ClientFor (client : ClientConfig) (yaml : YamlClientConfig) : Prop where
  listenAddr : yaml.listenAddr.getD "" = client.listenAddr
  servers : yaml.servers.getD "" = client.serversRaw
  sessionTimeout : TimeoutValue client.sessionTimeout yaml.sessionTimeout

/-- A server section that both programs have read. -/
structure ServerFor (server : ServerConfig) (yaml : YamlServerConfig) : Prop where
  listenAddrs : yaml.listenAddrs.getD "" = server.listenAddrsRaw
  targetAddr : yaml.targetAddr.getD "" = server.targetAddr
  dedupWindow : yaml.dedupWindow.getD 0 = server.dedupWindow.toNat
  sessionTimeout : TimeoutValue server.sessionTimeout yaml.sessionTimeout

/-- A file that both programs have read. -/
structure FileFor (cfg : Config) (yaml : YamlConfig) : Prop where
  mode : yaml.mode.getD "" = cfg.mode
  verbose : yaml.verbose.getD false = cfg.verbose
  client : ClientFor (cfg.client.getD {}) (yaml.client.getD {})
  server : ServerFor (cfg.server.getD {}) (yaml.server.getD {})

theorem fileFor_empty : FileFor {} {} :=
  ⟨rfl, rfl, ⟨rfl, rfl, rfl⟩, ⟨rfl, rfl, rfl, rfl⟩⟩

/-! ### The same values -/

/-- An endpoint of the Go program as the Rust program has it. -/
def Endpoint.migrated (e : Endpoint) : Fproxy.Config.Endpoint :=
  ⟨normalizeListenAddr e.address, if e.protocol = "udp" then .udp else .tcp⟩

/-- The Rust program has the values with which the Go program runs. -/
def Effective.RunsAs (x : Effective) (c : Fproxy.Config.Config) : Prop :=
  match x with
  | .client listenAddr servers sessionTimeout =>
      c.mode = .client ∧ ∃ client, c.client = some client ∧
        client.listenAddr = normalizeListenAddr listenAddr ∧
        client.servers = servers.map Endpoint.migrated ∧
        (client.sessionTimeout.toNanos : ℤ) = sessionTimeout
  | .server listenAddrs targetAddr dedupWindow sessionTimeout =>
      c.mode = .server ∧ ∃ server, c.server = some server ∧
        server.listenAddrs = listenAddrs.map Endpoint.migrated ∧
        server.targetAddr = targetAddr ∧ (server.dedupWindow : ℤ) = dedupWindow ∧
        (server.sessionTimeout.toNanos : ℤ) = sessionTimeout

/-- The Rust program finds one host in the servers.  It compares what `IpAddr` makes of them, so
an address and its IPv4-mapped form are two hosts, as are a missing host and an empty one in
brackets. -/
def Effective.OneHost : Effective → Prop
  | .client _ servers _ => servers.length ≤ 1 ∨
      ∃ ip, ∀ e ∈ servers, Config.parseHostIp IpAddr.parse e.migrated.address = .ok ip
  | .server _ _ _ _ => True

/-- A flag comes before the value of the file. -/
theorem given_or_getD {s value : String} {text : Option String} (h : text.getD "" = value) :
    ((given s).or text).getD "" = if s ≠ "" then s else value := by
  unfold given
  by_cases hs : s = ""
  · rw [if_pos hs, if_neg (not_not.mpr hs), Option.none_or]
    exact h
  · rw [if_neg hs, if_pos hs, Option.some_or, Option.getD_some]

/-- **The timeouts in force are the same.** -/
theorem timeouts_migrate {flag value : ℤ} {args yaml : Option String}
    (hflag : TimeoutFlag flag args) (hvalue : TimeoutValue value yaml) :
    ((sectionTimeout args yaml).orDefault.toNanos : ℤ) =
      if (if 0 < flag then flag else value) ≤ 0 then defaultSessionTimeout
      else if 0 < flag then flag else value := by
  have hdefault : ∀ {d : Duration} {timeout : ℤ}, d.toNanos = timeout.toNat →
      (d.orDefault.toNanos : ℤ) = if timeout ≤ 0 then defaultSessionTimeout else timeout := by
    intro d timeout h
    by_cases hzero : timeout ≤ 0
    · have hnanos : d.isZero = true := (isZero_iff d).mpr (by omega)
      rw [if_pos hzero, Duration.orDefault, if_pos hnanos]
      decide
    · rw [if_neg hzero, orDefault_of_pos (by omega)]
      omega
  unfold sectionTimeout
  rcases hflag with ⟨hle, rfl⟩ | ⟨s, d, rfl, hd, hpos, hnanos⟩
  · rw [if_neg (Int.not_lt.mpr hle), Option.none_or]
    exact hdefault hvalue
  · rw [if_pos hpos, Option.some_or, Option.bind_some, hd, Option.getD_some]
    exact hdefault hnanos

/-- **The windows in force are the same.** -/
theorem windows_migrate {flag value : ℤ} {yaml : Option ℕ} (hvalue : yaml.getD 0 = value.toNat)
    {window : ℕ}
    (hwindow : ((if 0 < flag then some flag.toNat else none).or yaml).getD 0 = window) :
    ((if window = 0 then Fproxy.Config.defaultDedupWindow else window : ℕ) : ℤ) =
      if (if 0 < flag then flag else value) ≤ 0 then defaultDedupWindow
      else if 0 < flag then flag else value := by
  have hdefault : (Fproxy.Config.defaultDedupWindow : ℤ) = defaultDedupWindow := rfl
  by_cases hflag : 0 < flag
  · rw [if_pos hflag, Option.some_or, Option.getD_some] at hwindow
    rw [if_neg (by omega : ¬ window = 0), if_pos hflag, if_neg (by omega : ¬ flag ≤ 0)]
    omega
  · rw [if_neg hflag, Option.none_or, hvalue] at hwindow
    rw [if_neg hflag]
    by_cases hzero : value ≤ 0
    · rw [if_pos hzero, if_pos (by omega : window = 0), hdefault]
    · rw [if_neg hzero, if_neg (by omega : ¬ window = 0)]
      omega

/-! ### Endpoints -/

section

variable {Ip : Type} [ToLower] {parseIp : String → Option Ip}
  (hip : ∀ host, isValidIp parseIp host = true → isValidIp IpAddr.parse host = true)

include hip

omit [ToLower] in
/-- An address that the Go program splits has a host for the Rust program, and still has one when
it is normalised. -/
theorem host_migrates {address host : String} (hhost : extractHost address = .ok host)
    (hvalid : host = "" ∨ isValidIp parseIp host = true) :
    Config.extractHost address = .ok host ∧ (host = "" ∨ isValidIp IpAddr.parse host = true) ∧
      ∃ ip, Config.parseHostIp IpAddr.parse (normalizeListenAddr address) = .ok ip := by
  obtain ⟨hrust, -⟩ := extractHost_iff.mp hhost
  have hvalid' : host = "" ∨ isValidIp IpAddr.parse host = true := hvalid.imp_right (hip host)
  have hacc : Accepted host.toList := by
    rcases hvalid' with rfl | hok
    · exact Or.inl rfl
    · exact Or.inr (Option.isSome_iff_exists.mp hok)
  have hform : ∃ ip, AddressSyntax.lenient.Form (normalizeListenAddr address).toList ip := by
    obtain ⟨port, hsplit⟩ := extractHost_eq_ok.mp hhost
    rcases splitHostPort_eq_ok.mp hsplit with ⟨haddr, -, hclose, hport⟩ | ⟨haddr, hhost, hport⟩
    · refine (form_of_bracketHost ⟨_, haddr, hclose⟩ hacc).mpr ?_
      rw [AddressSyntax.WellWritten, if_pos (by rw [haddr, List.head?_cons])]
      exact ⟨_, _, haddr, hclose, hport.1, fun _ => rfl⟩
    · have hhead : address.toList.head? ≠ some '[' := by
        rw [haddr]
        exact head_append_ne hhost.2.1 (openBracket_not_head _)
      refine (form_of_colonHost ⟨hhead, _, haddr, hport.1⟩ hacc).mpr ?_
      rw [AddressSyntax.WellWritten, if_neg hhead]
      refine ⟨_, _, haddr, hport.1, fun hcolon => ?_⟩
      rw [haddr] at hcolon
      by_contra hne
      obtain ⟨c, cs, hcs⟩ := List.exists_cons_of_ne_nil hne
      rw [hcs] at hcolon
      have hc : c = ':' := Option.some.inj hcolon
      exact hhost.1 (by rw [hcs, hc]; exact List.mem_cons_self)
  obtain ⟨ip, hform⟩ := hform
  obtain ⟨found, hfound, -⟩ := parseHostIp_of_form hform
  exact ⟨hrust, hvalid', found, hfound⟩

/-- An endpoint of the Go program is one of the Rust program. -/
theorem endpoint_migrates {item : String} {e : Endpoint}
    (h : parseEndpoint parseIp item = .ok e) :
    Config.Endpoint.parse IpAddr.parse item = .ok e.migrated ∧
      ∃ ip, Config.parseHostIp IpAddr.parse e.migrated.address = .ok ip := by
  obtain ⟨address, protocol, proto, host, hsplit, hproto, hhost, hvalid, rfl⟩ :=
    parseEndpoint_eq_ok.mp h
  obtain ⟨hrust, hvalid', hfound⟩ := host_migrates hip hhost hvalid
  refine ⟨parse_eq_ok.mpr ⟨address, protocol, proto, host, hsplit, hproto, hrust, hvalid', ?_⟩,
    hfound⟩
  cases proto <;> rfl

/-- **The endpoints that the Go program reads** are read by the Rust program. -/
theorem endpoints_migrate {text : String} {es : List Endpoint}
    (h : parseEndpoints parseIp text = .ok es) :
    Config.Endpoint.parseList IpAddr.parse text = .ok (es.map Endpoint.migrated) ∧
      ∀ e ∈ es.map Endpoint.migrated,
        ∃ ip, Config.parseHostIp IpAddr.parse e.address = .ok ip := by
  have hitems : List.Forall₂ (fun item e => parseEndpoint parseIp item = .ok e)
      (items text) es := by
    unfold parseEndpoints at h
    by_cases htext : text = ""
    · rw [if_pos htext] at h
      rw [htext, items_empty, ← Except.ok.inj h]
      exact List.Forall₂.nil
    · rw [if_neg htext] at h
      exact mapM_eq_ok.mp h
  refine ⟨parseList_eq_ok.mpr (List.forall₂_map_right_iff.mpr
    (hitems.imp fun _ _ hparse => (endpoint_migrates hip hparse).1)), ?_⟩
  rw [List.forall_mem_map]
  refine (forall_mem_iff hitems fun item e hparse => ?_).mpr (fun _ _ => trivial)
  exact iff_true_intro (endpoint_migrates hip hparse).2

end

/-! ### What the Go program runs with -/

section

variable {Ip : Type} [ToLower] {parseIp : String → Option Ip} {sameIp : Option Ip → Option Ip → Bool}

omit [ToLower] in
/-- `Validate` keeps the mode and knows it. -/
theorem validate_mode {c c' : Config} (h : c.validate parseIp sameIp = .ok c') :
    c'.mode = c.mode ∧ c'.verbose = c.verbose ∧ (c.mode = "client" ∨ c.mode = "server") := by
  unfold Config.validate at h
  split at h
  · exact absurd h (by rintro ⟨⟩)
  · split at h
    · exact absurd h (by rintro ⟨⟩)
    · next hknown =>
        have hmode : c.mode = "client" ∨ c.mode = "server" := by
          by_contra hne
          exact hknown (not_or.mp hne)
        split at h
        · obtain ⟨client, -, rfl⟩ := map_eq_ok.mp h
          exact ⟨rfl, rfl, hmode⟩
        · obtain ⟨server, -, rfl⟩ := map_eq_ok.mp h
          exact ⟨rfl, rfl, hmode⟩

omit [ToLower] in
theorem ClientConfig.validate_effective {client : ClientConfig} {x : Effective}
    (h : (client.validate parseIp sameIp).map ClientConfig.effective = .ok x) :
    client.listenAddr ≠ "" ∧ client.servers ≠ [] ∧
      x = .client client.listenAddr client.servers
        (if client.sessionTimeout ≤ 0 then defaultSessionTimeout else client.sessionTimeout) := by
  obtain ⟨client', hvalid, rfl⟩ := map_eq_ok.mp h
  unfold ClientConfig.validate at hvalid
  split at hvalid
  · exact absurd hvalid (by rintro ⟨⟩)
  next hlisten =>
  split at hvalid
  · exact absurd hvalid (by rintro ⟨⟩)
  next hservers =>
  obtain ⟨_, -, hvalid⟩ := bind_eq_ok.mp hvalid
  refine ⟨hlisten, hservers, ?_⟩
  rw [← Except.ok.inj hvalid]
  by_cases hzero : client.sessionTimeout ≤ 0
  · rw [if_pos hzero, if_pos hzero]
    rfl
  · rw [if_neg hzero, if_neg hzero]
    rfl

omit [ToLower] in
theorem ServerConfig.validate_effective {server : ServerConfig} {x : Effective}
    (h : server.validate.map ServerConfig.effective = .ok x) :
    server.listenAddrs ≠ [] ∧ server.targetAddr ≠ "" ∧
      x = .server server.listenAddrs server.targetAddr
        (if server.dedupWindow ≤ 0 then defaultDedupWindow else server.dedupWindow)
        (if server.sessionTimeout ≤ 0 then defaultSessionTimeout else server.sessionTimeout) := by
  obtain ⟨server', hvalid, rfl⟩ := map_eq_ok.mp h
  unfold ServerConfig.validate at hvalid
  split at hvalid
  · exact absurd hvalid (by rintro ⟨⟩)
  next hlisten =>
  split at hvalid
  · exact absurd hvalid (by rintro ⟨⟩)
  next htarget =>
  refine ⟨hlisten, htarget, ?_⟩
  rw [← Except.ok.inj hvalid]
  unfold ServerConfig.withWindow
  by_cases hwindow : server.dedupWindow ≤ 0 <;> by_cases hzero : server.sessionTimeout ≤ 0 <;>
    simp [hwindow, hzero, ServerConfig.effective]

theorem endpointsOr_eq_ok {wrap : EndpointError → LoadError} {raw : String} {es : List Endpoint} :
    endpointsOr parseIp wrap raw = .ok es ↔ parseEndpoints parseIp raw = .ok es := by
  unfold endpointsOr
  cases parseEndpoints parseIp raw with
  | error e => exact ⟨fun h => absurd h (by rintro ⟨⟩), fun h => absurd h (by rintro ⟨⟩)⟩
  | ok es' => exact ⟨fun h => by rw [Except.ok.inj h], fun h => by rw [Except.ok.inj h]⟩

/-- The endpoints in force are those of the text in force. -/
theorem endpoints_in_force {wrap : EndpointError → LoadError} {flag raw : String}
    {fromFile es : List Endpoint} (hfile : parseEndpoints parseIp raw = .ok fromFile)
    (h : (if flag ≠ "" then endpointsOr parseIp wrap flag else .ok fromFile) = .ok es) :
    parseEndpoints parseIp (if flag ≠ "" then flag else raw) = .ok es := by
  by_cases hflag : flag = ""
  · rw [if_neg (not_not.mpr hflag)] at h ⊢
    rw [← Except.ok.inj h]
    exact hfile
  · rw [if_pos hflag] at h ⊢
    exact endpointsOr_eq_ok.mp h

variable {flags : CLIFlags} {cfg c : Config}

theorem loadRead_mode (h : loadRead parseIp sameIp flags cfg = .ok c) :
    c.mode = selectedMode flags cfg ∧ c.verbose = (flags.verbose || cfg.verbose) ∧
      (c.mode = "client" ∨ c.mode = "server") := by
  obtain ⟨servers, -, h⟩ := bind_eq_ok.mp h
  obtain ⟨listenAddrs, -, h⟩ := bind_eq_ok.mp h
  obtain ⟨client, -, h⟩ := bind_eq_ok.mp h
  obtain ⟨server, -, h⟩ := bind_eq_ok.mp h
  obtain ⟨hmode, hverbose, hknown⟩ := validate_mode h
  refine ⟨hmode, hverbose, ?_⟩
  rw [hmode]
  exact hknown

/-- **A client of the Go program.** -/
theorem loadRead_client (h : loadRead parseIp sameIp flags cfg = .ok c)
    (hmode : selectedMode flags cfg = "client") :
    ∃ servers, parseEndpoints parseIp
        (if flags.servers ≠ "" then flags.servers else (cfg.client.getD {}).serversRaw) =
          .ok servers ∧ servers ≠ [] ∧
      (if flags.listenAddr ≠ "" then flags.listenAddr else (cfg.client.getD {}).listenAddr) ≠ "" ∧
      c.effective = .client
        (if flags.listenAddr ≠ "" then flags.listenAddr else (cfg.client.getD {}).listenAddr)
        servers
        (if (if 0 < flags.sessionTimeout then flags.sessionTimeout
            else (cfg.client.getD {}).sessionTimeout) ≤ 0 then defaultSessionTimeout
          else if 0 < flags.sessionTimeout then flags.sessionTimeout
            else (cfg.client.getD {}).sessionTimeout) := by
  obtain ⟨fromFile, hfile, h⟩ := bind_eq_ok.mp h
  obtain ⟨listenAddrs, -, h⟩ := bind_eq_ok.mp h
  have hfile := endpointsOr_eq_ok.mp hfile
  have heff : (applyFlags parseIp sameIp flags (cfg.withEndpoints fromFile listenAddrs)).map
      Config.effective = .ok c.effective := by
    rw [h]
    rfl
  have hmode' : selectedMode flags (cfg.withEndpoints fromFile listenAddrs) = "client" := hmode
  rw [applyFlags_client hmode', client_withEndpoints hfile] at heff
  obtain ⟨client, hclient, heff⟩ := bind_eq_ok.mp heff
  obtain ⟨_, -, heff⟩ := bind_eq_ok.mp heff
  obtain ⟨hlisten, hne, heff⟩ := ClientConfig.validate_effective heff
  have hfields := @clientFields_effective Ip _ parseIp flags
    { cfg.client.getD {} with servers := fromFile }
  rw [hclient] at hfields
  obtain ⟨servers, hservers, hx⟩ := map_eq_ok.mp hfields.symm
  obtain ⟨hlisten', rfl, htimeout⟩ := Effective.client.inj hx
  dsimp only at hlisten' htimeout hservers
  rw [← hlisten'] at hlisten heff
  rw [← htimeout] at heff
  exact ⟨_, endpoints_in_force hfile hservers, hne, hlisten, heff⟩

/-- **A server of the Go program.** -/
theorem loadRead_server (h : loadRead parseIp sameIp flags cfg = .ok c)
    (hmode : selectedMode flags cfg = "server") :
    ∃ listenAddrs, parseEndpoints parseIp
        (if flags.listenAddrs ≠ "" then flags.listenAddrs
          else (cfg.server.getD {}).listenAddrsRaw) = .ok listenAddrs ∧ listenAddrs ≠ [] ∧
      (if flags.targetAddr ≠ "" then flags.targetAddr else (cfg.server.getD {}).targetAddr) ≠ "" ∧
      c.effective = .server listenAddrs
        (if flags.targetAddr ≠ "" then flags.targetAddr else (cfg.server.getD {}).targetAddr)
        (if (if 0 < flags.dedupWindow then flags.dedupWindow
            else (cfg.server.getD {}).dedupWindow) ≤ 0 then defaultDedupWindow
          else if 0 < flags.dedupWindow then flags.dedupWindow
            else (cfg.server.getD {}).dedupWindow)
        (if (if 0 < flags.sessionTimeout then flags.sessionTimeout
            else (cfg.server.getD {}).sessionTimeout) ≤ 0 then defaultSessionTimeout
          else if 0 < flags.sessionTimeout then flags.sessionTimeout
            else (cfg.server.getD {}).sessionTimeout) := by
  obtain ⟨servers, -, h⟩ := bind_eq_ok.mp h
  obtain ⟨fromFile, hfile, h⟩ := bind_eq_ok.mp h
  have hfile := endpointsOr_eq_ok.mp hfile
  have heff : (applyFlags parseIp sameIp flags (cfg.withEndpoints servers fromFile)).map
      Config.effective = .ok c.effective := by
    rw [h]
    rfl
  have hmode' : selectedMode flags (cfg.withEndpoints servers fromFile) = "server" := hmode
  rw [applyFlags_server hmode', server_withEndpoints hfile] at heff
  obtain ⟨_, -, heff⟩ := bind_eq_ok.mp heff
  obtain ⟨server, hserver, heff⟩ := bind_eq_ok.mp heff
  obtain ⟨hne, htarget, heff⟩ := ServerConfig.validate_effective heff
  have hfields := @serverFields_effective Ip _ parseIp flags
    { cfg.server.getD {} with listenAddrs := fromFile }
  rw [hserver] at hfields
  obtain ⟨listenAddrs, hlisten, hx⟩ := map_eq_ok.mp hfields.symm
  obtain ⟨rfl, htarget', hwindow, htimeout⟩ := Effective.server.inj hx
  dsimp only at htarget' hwindow htimeout hlisten
  rw [← htarget'] at htarget heff
  rw [← hwindow, ← htimeout] at heff
  exact ⟨_, endpoints_in_force hfile hlisten, hne, htarget, heff⟩

end

/-! ### What the Rust program does -/

section

variable {Ip : Type} [DecidableEq Ip] {parseIp : String → Option Ip}
  {loadFromFile : String → Except ConfigError YamlConfig} {args : CliArgs} {yaml : YamlConfig}

/-- Servers with hosts fail the check only by the difference of the hosts. -/
theorem checkServers_of_hosts {es : List Fproxy.Config.Endpoint}
    (h : ∀ e ∈ es, ∃ ip, Config.parseHostIp parseIp e.address = .ok ip) :
    Config.checkServers parseIp es = .ok () ∨
      Config.checkServers parseIp es = .error .clientServersDifferentIps := by
  have hrest : ∀ (firstIp : Option Ip) (es : List Fproxy.Config.Endpoint),
      (∀ e ∈ es, ∃ ip, Config.parseHostIp parseIp e.address = .ok ip) →
      Config.checkSameIp parseIp firstIp es = .ok () ∨
        Config.checkSameIp parseIp firstIp es = .error .clientServersDifferentIps := by
    intro firstIp es h
    induction es with
    | nil => exact Or.inl rfl
    | cons e es ih =>
        obtain ⟨⟨ip, hip⟩, hes⟩ := List.forall_mem_cons.mp h
        rw [Config.checkSameIp, hip]
        show (if firstIp ≠ ip then _ else _) = _ ∨ (if firstIp ≠ ip then _ else _) = _
        by_cases hsame : firstIp = ip
        · rw [if_neg (not_not.mpr hsame)]
          exact ih hes
        · rw [if_pos hsame]
          exact Or.inr rfl
  cases es with
  | nil => exact Or.inl rfl
  | cons first rest =>
      cases rest with
      | nil => exact Or.inl rfl
      | cons second rest =>
          obtain ⟨⟨ip, hip⟩, hes⟩ := List.forall_mem_cons.mp h
          rw [Config.checkServers, hip]
          exact hrest ip (second :: rest) hes

/-- In client mode, the check of the servers decides. -/
theorem load_of_client {built : Fproxy.Config.ClientConfig}
    (hyaml : Config.readConfig loadFromFile args = .ok yaml)
    (hmode : selectMode args yaml = .ok .client)
    (hbuilt : buildClient parseIp args (yaml.client.getD {}) = .ok built)
    (hlisten : built.listenAddr ≠ "") (hservers : built.servers ≠ []) :
    Config.load parseIp loadFromFile args =
      (Config.checkServers parseIp built.servers).map fun _ =>
        ⟨.client, args.verbose || yaml.verbose.getD false,
          some { built with sessionTimeout := built.sessionTimeout.orDefault }, none⟩ := by
  unfold Config.load
  rw [hyaml]
  show selectMode args yaml >>= _ = _
  rw [hmode]
  show (buildClient parseIp args (yaml.client.getD {})).map some >>= _ = _
  rw [hbuilt]
  show Config.ClientConfig.validate parseIp built >>= _ = _
  rw [Config.ClientConfig.validate, if_neg hlisten, if_neg hservers]
  cases Config.checkServers parseIp built.servers <;> rfl

end

/-- The mode is the same. -/
theorem mode_migrates {flags : CLIFlags} {args : CliArgs} {cfg : Config} {yaml : YamlConfig}
    {mode : Mode} {name : String} (hflags : FlagsFor flags args) (hfile : FileFor cfg yaml)
    (hname : selectedMode flags cfg = name) (hne : name ≠ "")
    (hmode : Mode.fromStr name = some mode) :
    selectMode args yaml = .ok mode := by
  have htext : args.mode.or yaml.mode = some name := by
    have hgetD : (args.mode.or yaml.mode).getD "" = name := by
      rw [hflags.mode, given_or_getD hfile.mode]
      exact hname
    cases htext : args.mode.or yaml.mode with
    | none =>
        rw [htext] at hgetD
        exact absurd hgetD.symm hne
    | some s =>
        rw [htext] at hgetD
        exact congrArg some hgetD
  unfold selectMode
  rw [htext]
  dsimp only
  rw [hmode]

theorem normalizeListenAddr_ne {s : String} (h : s ≠ "") : normalizeListenAddr s ≠ "" := by
  have happend : ∀ a b : String, a ≠ "" → a ++ b ≠ "" := by
    intro a b ha hab
    rw [← String.toList_inj, String.toList_append] at hab
    exact ha (String.toList_inj.mp (List.append_eq_nil_iff.mp hab).1)
  unfold normalizeListenAddr
  split
  · exact happend _ _ (by decide)
  · split
    · exact happend _ _ (by decide)
    · exact h

section Migration

variable {Ip : Type} [ToLower] {parseIp : String → Option Ip} {sameIp : Option Ip → Option Ip → Bool}
  {readFile : String → Except LoadError File}
  {loadYaml : String → Except ConfigError YamlConfig} {flags : CLIFlags} {args : CliArgs}
  {c : Config}

/-- What both programs have read, and that the Go program has accepted it. -/
theorem exists_input (hflags : FlagsFor flags args)
    (hfile : ∀ file, readFile flags.configFile = .ok file →
      ∃ yaml, loadYaml flags.configFile = .ok yaml ∧ FileFor file.config yaml)
    (h : load parseIp sameIp readFile flags = .ok c) :
    ∃ cfg yaml, FileFor cfg yaml ∧ Config.readConfig loadYaml args = .ok yaml ∧
      loadRead parseIp sameIp flags cfg = .ok c := by
  by_cases hnone : flags.configFile = ""
  · have hargs : args.config = none := by rw [hflags.config, given, if_pos hnone]
    refine ⟨{}, {}, fileFor_empty, ?_, ?_⟩
    · rw [Config.readConfig, hargs]
    · unfold load readConfig at h
      rw [if_neg (not_not.mpr hnone)] at h
      exact h
  · have hargs : args.config = some flags.configFile := by
      rw [hflags.config, given, if_neg hnone]
    obtain ⟨file, hread⟩ : ∃ file, readFile flags.configFile = .ok file := by
      unfold load readConfig loadFromFile at h
      rw [if_pos hnone] at h
      obtain ⟨cfg, hcfg, -⟩ := bind_eq_ok.mp h
      obtain ⟨file, hread, -⟩ := bind_eq_ok.mp hcfg
      exact ⟨file, hread⟩
    obtain ⟨yaml, hyaml, hsame⟩ := hfile file hread
    refine ⟨file.config, yaml, hsame, ?_, ?_⟩
    · rw [Config.readConfig, hargs]
      exact hyaml
    · rw [← load_eq hnone hread]
      exact h

section

variable {cfg : Config} {yaml : YamlConfig}

theorem verbose_migrates (hflags : FlagsFor flags args) (hsame : FileFor cfg yaml)
    (hread : loadRead parseIp sameIp flags cfg = .ok c) :
    (args.verbose || yaml.verbose.getD false) = c.verbose := by
  rw [(loadRead_mode hread).2.1, hflags.verbose, hsame.verbose]

omit [ToLower] in
theorem buildClient_migrates (hflags : FlagsFor flags args) (hsame : FileFor cfg yaml)
    {servers : List Fproxy.Config.Endpoint}
    (hparse : Config.Endpoint.parseList IpAddr.parse
      (if flags.servers ≠ "" then flags.servers else (cfg.client.getD {}).serversRaw) =
        .ok servers) :
    buildClient IpAddr.parse args (yaml.client.getD {}) =
      .ok ⟨normalizeListenAddr (if flags.listenAddr ≠ "" then flags.listenAddr
          else (cfg.client.getD {}).listenAddr), servers,
        sectionTimeout args.sessionTimeout (yaml.client.getD {}).sessionTimeout⟩ := by
  unfold buildClient
  rw [hflags.servers, given_or_getD hsame.client.servers, hparse, hflags.listen,
    given_or_getD hsame.client.listenAddr]
  rfl

omit [ToLower] in
theorem buildServer_migrates (hflags : FlagsFor flags args) (hsame : FileFor cfg yaml)
    {listenAddrs : List Fproxy.Config.Endpoint}
    (hparse : Config.Endpoint.parseList IpAddr.parse
      (if flags.listenAddrs ≠ "" then flags.listenAddrs
        else (cfg.server.getD {}).listenAddrsRaw) = .ok listenAddrs) :
    buildServer IpAddr.parse args (yaml.server.getD {}) =
      .ok ⟨listenAddrs,
        if flags.targetAddr ≠ "" then flags.targetAddr else (cfg.server.getD {}).targetAddr,
        (args.dedupWindow.or (yaml.server.getD {}).dedupWindow).getD 0,
        sectionTimeout args.sessionTimeout (yaml.server.getD {}).sessionTimeout⟩ := by
  unfold buildServer
  rw [hflags.listenAddrs, given_or_getD hsame.server.listenAddrs, hparse, hflags.target,
    given_or_getD hsame.server.targetAddr]
  rfl

/-- A client of the Go program stands or falls with the check of its servers. -/
theorem client_migrates
    (hip : ∀ host, isValidIp parseIp host = true → isValidIp IpAddr.parse host = true)
    (hflags : FlagsFor flags args) (hsame : FileFor cfg yaml)
    (hyaml : Config.readConfig loadYaml args = .ok yaml)
    (hread : loadRead parseIp sameIp flags cfg = .ok c)
    (hclient : selectedMode flags cfg = "client") :
    (c.effective.OneHost ∧ ∃ c', Config.load IpAddr.parse loadYaml args = .ok c' ∧
        c'.verbose = c.verbose ∧ c.effective.RunsAs c') ∨
      (¬ c.effective.OneHost ∧
        Config.load IpAddr.parse loadYaml args = .error .clientServersDifferentIps) := by
  obtain ⟨servers, hservers, hne, hlisten, heff⟩ := loadRead_client hread hclient
  obtain ⟨hparse, hhosts⟩ := endpoints_migrate hip hservers
  have hselect := mode_migrates hflags hsame hclient (by decide)
    (show Mode.fromStr "client" = some .client by decide)
  have hload := load_of_client hyaml hselect (buildClient_migrates hflags hsame hparse)
    (normalizeListenAddr_ne hlisten) (by simpa using hne)
  have hone : Config.checkServers IpAddr.parse (servers.map Endpoint.migrated) = .ok () ↔
      c.effective.OneHost := by
    rw [checkServers_eq_ok, heff, List.length_map]
    simp only [List.forall_mem_map]
    exact Iff.rfl
  rcases checkServers_of_hosts hhosts with hcheck | hcheck
  · left
    rw [hload, hcheck]
    refine ⟨hone.mp hcheck, _, rfl, verbose_migrates hflags hsame hread, ?_⟩
    rw [heff]
    exact ⟨rfl, _, rfl, rfl, rfl,
      timeouts_migrate hflags.sessionTimeout hsame.client.sessionTimeout⟩
  · right
    rw [hload, hcheck]
    refine ⟨fun hx => ?_, rfl⟩
    rw [hone.mpr hx] at hcheck
    exact absurd hcheck (by rintro ⟨⟩)

/-- A server of the Go program is one of the Rust program. -/
theorem server_migrates
    (hip : ∀ host, isValidIp parseIp host = true → isValidIp IpAddr.parse host = true)
    (hflags : FlagsFor flags args) (hsame : FileFor cfg yaml)
    (hyaml : Config.readConfig loadYaml args = .ok yaml)
    (hread : loadRead parseIp sameIp flags cfg = .ok c)
    (hserver : selectedMode flags cfg = "server") :
    c.effective.OneHost ∧ ∃ c', Config.load IpAddr.parse loadYaml args = .ok c' ∧
      c'.verbose = c.verbose ∧ c.effective.RunsAs c' := by
  obtain ⟨listenAddrs, hlisten, hne, htarget, heff⟩ := loadRead_server hread hserver
  obtain ⟨hparse, -⟩ := endpoints_migrate hip hlisten
  have hselect := mode_migrates hflags hsame hserver (by decide)
    (show Mode.fromStr "server" = some .server by decide)
  have hload := load_eq_ok.mpr ⟨yaml, hyaml, Or.inr ⟨_, _, hselect,
    buildServer_migrates hflags hsame hparse,
    Config.ServerConfig.validate_eq_ok.mpr ⟨by simpa using hne, htarget, rfl⟩, rfl⟩⟩
  rw [heff]
  refine ⟨trivial, _, hload, verbose_migrates hflags hsame hread, rfl, _, rfl, rfl, rfl, ?_,
    timeouts_migrate hflags.sessionTimeout hsame.server.sessionTimeout⟩
  rw [hflags.dedupWindow]
  exact windows_migrate hsame.server.dedupWindow rfl

end

end Migration

/-- The file of a client with two servers, as the Go program reads it. -/
def twoServersFile : File where
  config :=
    { mode := "client"
      client := some { serversRaw := "10.0.0.1:8001/udp, 10.0.0.1:8002/tcp"
                       sessionTimeout := 300 * 1000000000 } }
  servers_nil client h := by rw [← Option.some.inj h]
  listenAddrs_nil server h := absurd h (by simp)

/-- The same file, as the Rust program reads it. -/
def twoServersYaml : YamlConfig :=
  { mode := some "client"
    client := some { servers := some "10.0.0.1:8001/udp, 10.0.0.1:8002/tcp"
                     sessionTimeout := some "5m" } }

/-- The file of a server with a window of 500, as the Go program reads it. -/
def windowFile : File where
  config :=
    { mode := "server"
      server := some { listenAddrsRaw := ":8001/udp", targetAddr := "10.0.0.1:9000"
                       dedupWindow := 500 } }
  servers_nil client h := absurd h (by simp)
  listenAddrs_nil server h := by rw [← Option.some.inj h]

/-- The same file, as the Rust program reads it. -/
def windowYaml : YamlConfig :=
  { mode := some "server"
    server := some { listenAddrs := some ":8001/udp", targetAddr := some "10.0.0.1:9000"
                     dedupWindow := some 500 } }

/-- A window flag of zero is a missing flag for the Go program, and a value for the Rust program, in
place of that of the file. -/
example :
    (load IpAddr.parse (fun x y => decide (x = y)) (fun _ => .ok windowFile)
      { configFile := "fproxy.yaml", dedupWindow := 0 }).map
        (fun c => c.server.map fun server => server.dedupWindow) = .ok (some 500) ∧
    (Config.load IpAddr.parse (fun _ => .ok windowYaml)
      { config := some "fproxy.yaml", dedupWindow := some 0 }).map
        (fun c => c.server.map fun server => server.dedupWindow) = .ok (some 10000) :=
  ⟨rfl, rfl⟩

/-- A missing host and an empty one in brackets are one host for the Go program only. -/
example :
    (∃ c, load IpAddr.parse (fun x y => decide (x = y)) (fun p => .error (.readFile p))
      { mode := "client", listenAddr := ":5000", servers := ":8001/udp,[]:8002/tcp" } = .ok c) ∧
    Config.load IpAddr.parse (fun p => .error (.fileReadError p))
      (clientArgs ":8001/udp,[]:8002/tcp") = .error .clientServersDifferentIps :=
  ⟨⟨_, rfl⟩, rfl⟩

end Fproxy.GoConfig
