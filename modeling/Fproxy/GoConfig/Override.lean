import Fproxy.GoConfig.Load
import Fproxy.Net.Parser

/-!
# Flags over file values

The flags of the Go program are to override the values of the file, so a value that is overridden
should make no difference.  `LoadFromFile` does not know the flags: it parses the endpoint strings
of both sections, and returns an error for one that is about to be overridden.

Two files are compared after their overridden values are masked (`mask`); a missing section counts
as an empty one.

* **`clientFields_congr`**, **`serverFields_congr`** — behind the file, an overridden value makes
  no difference.
* **`overridden_without_influence_iff`** — two files that differ in overridden values only have the
  same outcome if and only if their overridden endpoint strings are malformed alike.
* `overridden_good_servers`, `overridden_malformed_servers` — two files with good servers, and one
  with a malformed string that is overridden.
-/

namespace Fproxy.GoConfig

open Fproxy.Fallible Fproxy.Text

section

variable {Ip : Type} [ToLower] (parseIp : String → Option Ip) (sameIp : Option Ip → Option Ip → Bool)

/-- The error that an endpoint string is refused with, if any. -/
def endpointError (raw : String) : Option EndpointError :=
  match parseEndpoints parseIp raw with
  | .error e => some e
  | .ok _ => none

/-- The client section with the overridden values masked: a string flag is not empty, endpoints are
valid as well, a timeout is positive. -/
def maskClient (flags : CLIFlags) (client : ClientConfig) : ClientConfig :=
  { client with
    listenAddr := if flags.listenAddr ≠ "" then "" else client.listenAddr
    serversRaw :=
      if flags.servers ≠ "" ∧ endpointError parseIp flags.servers = none then ""
      else client.serversRaw
    sessionTimeout := if 0 < flags.sessionTimeout then 0 else client.sessionTimeout }

/-- The server section with the overridden values masked. -/
def maskServer (flags : CLIFlags) (server : ServerConfig) : ServerConfig :=
  { server with
    listenAddrsRaw :=
      if flags.listenAddrs ≠ "" ∧ endpointError parseIp flags.listenAddrs = none then ""
      else server.listenAddrsRaw
    targetAddr := if flags.targetAddr ≠ "" then "" else server.targetAddr
    dedupWindow := if 0 < flags.dedupWindow then 0 else server.dedupWindow
    sessionTimeout := if 0 < flags.sessionTimeout then 0 else server.sessionTimeout }

/-- A file with the values masked that the flags override: the mode, and fields of the section of
the selected mode. -/
def mask (flags : CLIFlags) (cfg : Config) : Config :=
  { cfg with
    mode := if flags.mode = "client" ∨ flags.mode = "server" then "" else cfg.mode
    client :=
      if selectedMode flags cfg = "client" then some (maskClient parseIp flags (cfg.client.getD {}))
      else cfg.client
    server :=
      if selectedMode flags cfg = "server" then some (maskServer parseIp flags (cfg.server.getD {}))
      else cfg.server }

/-- The same error, or success with the same mode and the same values in force. -/
def SameOutcome (x y : Except LoadError Config) : Prop :=
  (∃ e, x = .error e ∧ y = .error e) ∨
    ∃ c c', x = .ok c ∧ y = .ok c' ∧ c.effective = c'.effective

/-- The overridden endpoint strings of two files are refused with the same error or not at all; in
server mode nothing is asked if the client section, which is parsed first, is refused. -/
def MalformedAlike (flags : CLIFlags) (a b : Config) : Prop :=
  if selectedMode flags a = "client" then
    endpointError parseIp (a.client.getD {}).serversRaw =
      endpointError parseIp (b.client.getD {}).serversRaw
  else if selectedMode flags a = "server" then
    endpointError parseIp (a.client.getD {}).serversRaw ≠ none ∨
      endpointError parseIp (a.server.getD {}).listenAddrsRaw =
        endpointError parseIp (b.server.getD {}).listenAddrsRaw
  else True

variable {parseIp} {sameIp}

/-! ### Behind the file -/

theorem clientFields_effective (flags : CLIFlags) (client : ClientConfig) :
    (overrideClientFields parseIp flags client).map ClientConfig.effective =
      (if flags.servers ≠ "" then endpointsOr parseIp .invalidServersFlag flags.servers
        else .ok client.servers).map fun servers =>
          .client (if flags.listenAddr ≠ "" then flags.listenAddr else client.listenAddr) servers
            (if 0 < flags.sessionTimeout then flags.sessionTimeout else client.sessionTimeout) := by
  have hlast : ∀ c : ClientConfig, ClientConfig.effective
      (if 0 < flags.sessionTimeout then { c with sessionTimeout := flags.sessionTimeout } else c) =
        .client c.listenAddr c.servers
          (if 0 < flags.sessionTimeout then flags.sessionTimeout else c.sessionTimeout) := by
    intro c
    by_cases htime : 0 < flags.sessionTimeout <;> simp [htime, ClientConfig.effective]
  have hfirst : (if flags.listenAddr ≠ "" then { client with listenAddr := flags.listenAddr }
      else client) = { client with
        listenAddr := if flags.listenAddr ≠ "" then flags.listenAddr else client.listenAddr } := by
    by_cases hlisten : flags.listenAddr = "" <;> simp [hlisten]
  unfold overrideClientFields overrideServers
  rw [hfirst]
  dsimp only
  by_cases hservers : flags.servers = ""
  · rw [if_neg (not_not.mpr hservers), if_neg (not_not.mpr hservers)]
    exact congrArg Except.ok (hlast _)
  · rw [if_pos hservers, if_pos hservers]
    cases endpointsOr parseIp .invalidServersFlag flags.servers with
    | error e => rfl
    | ok es => exact congrArg Except.ok (hlast _)

theorem serverFields_effective (flags : CLIFlags) (server : ServerConfig) :
    (overrideServerFields parseIp flags server).map ServerConfig.effective =
      (if flags.listenAddrs ≠ "" then endpointsOr parseIp .invalidListenAddrsFlag flags.listenAddrs
        else .ok server.listenAddrs).map fun listenAddrs =>
          .server listenAddrs
            (if flags.targetAddr ≠ "" then flags.targetAddr else server.targetAddr)
            (if 0 < flags.dedupWindow then flags.dedupWindow else server.dedupWindow)
            (if 0 < flags.sessionTimeout then flags.sessionTimeout else server.sessionTimeout) := by
  have hrest : ∀ s : ServerConfig,
      ServerConfig.effective
        (let s := if flags.targetAddr ≠ "" then { s with targetAddr := flags.targetAddr } else s
         let s := if 0 < flags.dedupWindow then { s with dedupWindow := flags.dedupWindow } else s
         if 0 < flags.sessionTimeout then { s with sessionTimeout := flags.sessionTimeout } else s) =
      .server s.listenAddrs
        (if flags.targetAddr ≠ "" then flags.targetAddr else s.targetAddr)
        (if 0 < flags.dedupWindow then flags.dedupWindow else s.dedupWindow)
        (if 0 < flags.sessionTimeout then flags.sessionTimeout else s.sessionTimeout) := by
    intro s
    by_cases htarget : flags.targetAddr = "" <;> by_cases hwindow : 0 < flags.dedupWindow <;>
      by_cases htime : 0 < flags.sessionTimeout <;>
        simp [htarget, hwindow, htime, ServerConfig.effective]
  unfold overrideServerFields overrideListenAddrs
  by_cases hlisten : flags.listenAddrs = ""
  · rw [if_neg (not_not.mpr hlisten), if_neg (not_not.mpr hlisten)]
    exact congrArg Except.ok (hrest server)
  · rw [if_pos hlisten, if_pos hlisten]
    cases endpointsOr parseIp .invalidListenAddrsFlag flags.listenAddrs with
    | error e => rfl
    | ok es => exact congrArg Except.ok (hrest { server with listenAddrs := es })

omit [ToLower] in
/-- A value that a flag overrides may be masked. -/
theorem ite_of_masked {α : Type} {p : Prop} [Decidable p] {m v x y : α}
    (h : (if p then m else x) = if p then m else y) :
    (if p then v else x) = if p then v else y := by
  by_cases hp : p
  · rw [if_pos hp, if_pos hp]
  · rw [if_neg hp, if_neg hp] at h
    rw [if_neg hp, if_neg hp, h]

/-- Endpoints that no valid flag overrides are those of the file. -/
theorem endpoints_of_masked {flag rawA rawB : String} {esA esB : List Endpoint}
    (hmask : (if flag ≠ "" ∧ endpointError parseIp flag = none then "" else rawA) =
      if flag ≠ "" ∧ endpointError parseIp flag = none then "" else rawB)
    (hA : parseEndpoints parseIp rawA = .ok esA) (hB : parseEndpoints parseIp rawB = .ok esB)
    (hflag : flag = "") : esA = esB := by
  have hfree : ¬ (flag ≠ "" ∧ endpointError parseIp flag = none) := fun h => h.1 hflag
  rw [if_neg hfree, if_neg hfree] at hmask
  rw [hmask, hB] at hA
  exact (Except.ok.inj hA).symm

/-- **Behind the file** an overridden value of the client makes no difference. -/
theorem clientFields_congr {flags : CLIFlags} {a b : ClientConfig} {esA esB : List Endpoint}
    (hmask : maskClient parseIp flags a = maskClient parseIp flags b)
    (hA : parseEndpoints parseIp a.serversRaw = .ok esA)
    (hB : parseEndpoints parseIp b.serversRaw = .ok esB) :
    (overrideClientFields parseIp flags { a with servers := esA }).map ClientConfig.effective =
      (overrideClientFields parseIp flags { b with servers := esB }).map
        ClientConfig.effective := by
  rw [clientFields_effective, clientFields_effective]
  dsimp only
  rw [ite_of_masked (congrArg ClientConfig.listenAddr hmask),
    ite_of_masked (congrArg ClientConfig.sessionTimeout hmask)]
  by_cases hflag : flags.servers = ""
  · rw [endpoints_of_masked (congrArg ClientConfig.serversRaw hmask) hA hB hflag]
  · rw [if_pos hflag, if_pos hflag]

/-- **Behind the file** an overridden value of the server makes no difference. -/
theorem serverFields_congr {flags : CLIFlags} {a b : ServerConfig} {esA esB : List Endpoint}
    (hmask : maskServer parseIp flags a = maskServer parseIp flags b)
    (hA : parseEndpoints parseIp a.listenAddrsRaw = .ok esA)
    (hB : parseEndpoints parseIp b.listenAddrsRaw = .ok esB) :
    (overrideServerFields parseIp flags { a with listenAddrs := esA }).map
        ServerConfig.effective =
      (overrideServerFields parseIp flags { b with listenAddrs := esB }).map
        ServerConfig.effective := by
  rw [serverFields_effective, serverFields_effective]
  dsimp only
  rw [ite_of_masked (congrArg ServerConfig.targetAddr hmask),
    ite_of_masked (congrArg ServerConfig.dedupWindow hmask),
    ite_of_masked (congrArg ServerConfig.sessionTimeout hmask)]
  by_cases hflag : flags.listenAddrs = ""
  · rw [endpoints_of_masked (congrArg ServerConfig.listenAddrsRaw hmask) hA hB hflag]
  · rw [if_pos hflag, if_pos hflag]

omit [ToLower] in
theorem ClientConfig.validate_congr {a b : ClientConfig} (h : a.effective = b.effective) :
    (a.validate parseIp sameIp).map ClientConfig.effective =
      (b.validate parseIp sameIp).map ClientConfig.effective := by
  obtain ⟨hlisten, hservers, htime⟩ := Effective.client.inj h
  unfold ClientConfig.validate
  rw [hlisten, hservers, htime]
  split
  · rfl
  · split
    · rfl
    · rw [map_bind, map_bind]
      congr 1
      funext _
      split <;> simp [Except.map, ClientConfig.effective, hlisten, hservers, htime]

omit [ToLower] in
theorem ServerConfig.validate_congr {a b : ServerConfig} (h : a.effective = b.effective) :
    a.validate.map ServerConfig.effective = b.validate.map ServerConfig.effective := by
  obtain ⟨hlisten, htarget, hwindow, htime⟩ := Effective.server.inj h
  unfold ServerConfig.validate ServerConfig.withWindow
  rw [hlisten, htarget, hwindow]
  split
  · rfl
  · split
    · rfl
    · by_cases hzero : b.dedupWindow ≤ 0 <;> by_cases hshort : b.sessionTimeout ≤ 0 <;>
        simp [Except.map, ServerConfig.effective, *]

/-! ### Which errors the file gives -/

/-- The errors of the endpoint strings of a file. -/
def LoadError.fromFile : LoadError → Bool
  | .invalidClientServers _ => true
  | .invalidServerListenAddrs _ => true
  | _ => false

/-- A step behind the file. -/
def Later {α : Type} (x : Except LoadError α) : Prop := ∀ e, x = .error e → e.fromFile = false

omit [ToLower] in
theorem later_ok {α : Type} (a : α) : Later (.ok a : Except LoadError α) := by
  intro e h
  exact absurd h (by rintro ⟨⟩)

omit [ToLower] in
theorem later_error {α : Type} {e : LoadError} (h : e.fromFile = false) :
    Later (.error e : Except LoadError α) := by
  intro e' he
  rw [← Except.error.inj he, h]

omit [ToLower] in
theorem Later.bind {α β : Type} {x : Except LoadError α} {f : α → Except LoadError β}
    (hx : Later x) (hf : ∀ a, Later (f a)) : Later (x >>= f) := by
  cases x with
  | error e => exact later_error (hx e rfl)
  | ok a => exact hf a

omit [ToLower] in
theorem Later.map {α β : Type} {x : Except LoadError α} (hx : Later x) (f : α → β) :
    Later (x.map f) := by
  cases x with
  | error e => exact later_error (hx e rfl)
  | ok a => exact later_ok (f a)

omit [ToLower] in
theorem Later.ite {α : Type} {p : Prop} [Decidable p] {x y : Except LoadError α} (hx : Later x)
    (hy : Later y) : Later (if p then x else y) := by
  split
  · exact hx
  · exact hy

theorem later_endpointsOr {wrap : EndpointError → LoadError} (hwrap : ∀ e, (wrap e).fromFile = false)
    (raw : String) : Later (endpointsOr parseIp wrap raw) := by
  unfold endpointsOr
  split
  · exact later_error (hwrap _)
  · exact later_ok _

omit [ToLower] in
theorem later_checkServers (servers : List Endpoint) : Later (checkServers parseIp sameIp servers) := by
  have hip : ∀ e, Later (serverIp parseIp e) := by
    intro e
    unfold serverIp
    split
    · exact later_error rfl
    · exact later_ok _
  have hsame : ∀ firstIp es, Later (checkSameIp parseIp sameIp firstIp es) := by
    intro firstIp es
    induction es with
    | nil => exact later_ok ()
    | cons e es ih => exact (hip e).bind fun _ => Later.ite (later_error rfl) ih
  unfold checkServers
  split
  · exact (hip _).bind fun _ => hsame _ _
  · exact later_ok ()

/-- **Behind the file** no error of its endpoint strings is left. -/
theorem later_applyFlags (flags : CLIFlags) (cfg : Config) :
    Later (applyFlags parseIp sameIp flags cfg) := by
  have hclient : Later (overrideClient parseIp flags cfg.client) := by
    refine Later.ite (Later.map (Later.bind (Later.ite ?_ (later_ok _)) fun _ => later_ok _) _)
      (later_ok _)
    exact (later_endpointsOr (fun _ => rfl) _).map _
  have hserver : Later (overrideServer parseIp flags cfg.server) := by
    refine Later.ite (Later.map (Later.bind (Later.ite ?_ (later_ok _)) fun _ => later_ok _) _)
      (later_ok _)
    exact (later_endpointsOr (fun _ => rfl) _).map _
  refine hclient.bind fun client => hserver.bind fun server => ?_
  refine Later.ite (later_error rfl) (Later.ite (later_error rfl) (Later.ite ?_ ?_))
  · refine Later.map (Later.ite (later_error rfl) (Later.ite (later_error rfl) ?_)) _
    exact (later_checkServers _).bind fun _ => later_ok _
  · exact Later.map (Later.ite (later_error rfl) (Later.ite (later_error rfl) (later_ok _))) _

/-! ### Two files -/

omit [ToLower] in
theorem sameOutcome_iff {x y : Except LoadError Config} :
    SameOutcome x y ↔ x.map Config.effective = y.map Config.effective := by
  constructor
  · rintro (⟨e, rfl, rfl⟩ | ⟨c, c', rfl, rfl, h⟩)
    · rfl
    · exact congrArg Except.ok h
  · intro h
    cases x with
    | error e =>
        cases y with
        | error e' => exact Or.inl ⟨e, rfl, by rw [Except.error.inj h]⟩
        | ok c' => exact absurd h (by rintro ⟨⟩)
    | ok c =>
        cases y with
        | error e' => exact absurd h (by rintro ⟨⟩)
        | ok c' => exact Or.inr ⟨c, c', rfl, rfl, Except.ok.inj h⟩

theorem endpointsOr_of_error {wrap : EndpointError → LoadError} {raw : String} {e : EndpointError}
    (h : endpointError parseIp raw = some e) : endpointsOr parseIp wrap raw = .error (wrap e) := by
  unfold endpointError at h
  unfold endpointsOr
  cases hp : parseEndpoints parseIp raw with
  | error e' =>
      rw [hp] at h
      rw [Option.some.inj h]
  | ok es =>
      rw [hp] at h
      exact absurd h (by simp)

theorem endpointsOr_of_none {raw : String} (h : endpointError parseIp raw = none) :
    ∃ es, parseEndpoints parseIp raw = .ok es ∧
      ∀ wrap, endpointsOr parseIp wrap raw = .ok es := by
  unfold endpointError at h
  cases hp : parseEndpoints parseIp raw with
  | error e =>
      rw [hp] at h
      exact absurd h (by simp)
  | ok es => exact ⟨es, rfl, fun wrap => by rw [endpointsOr, hp]⟩

omit [ToLower] in
theorem SameOutcome.refl (x : Except LoadError Config) : SameOutcome x x :=
  sameOutcome_iff.mpr rfl

omit [ToLower] in
theorem SameOutcome.symm {x y : Except LoadError Config} (h : SameOutcome x y) :
    SameOutcome y x :=
  sameOutcome_iff.mpr (sameOutcome_iff.mp h).symm

omit [ToLower] in
/-- A refused string shows in the outcome, if nothing that follows has its error. -/
theorem not_sameOutcome_error {e : LoadError} {y : Except LoadError Config} (hy : y ≠ .error e) :
    ¬ SameOutcome (.error e) y := by
  rintro (⟨e', he, he'⟩ | ⟨c, c', hc, -⟩)
  · exact hy (by rw [Except.error.inj he]; exact he')
  · exact absurd hc (by rintro ⟨⟩)

/-- **Two endpoint strings in the same place**: what follows them has the same outcome when both
are parsed, and never their error.  Then they have the same outcome if and only if they are refused
with the same error or not at all. -/
theorem parsed_iff {wrap : EndpointError → LoadError} (hinj : ∀ e e', wrap e = wrap e' → e = e')
    {rawA rawB : String} {kA kB : List Endpoint → Except LoadError Config}
    (hA : ∀ es e, kA es ≠ .error (wrap e)) (hB : ∀ es e, kB es ≠ .error (wrap e))
    (hsame : ∀ esA esB, parseEndpoints parseIp rawA = .ok esA →
      parseEndpoints parseIp rawB = .ok esB → SameOutcome (kA esA) (kB esB)) :
    SameOutcome (endpointsOr parseIp wrap rawA >>= kA) (endpointsOr parseIp wrap rawB >>= kB) ↔
      endpointError parseIp rawA = endpointError parseIp rawB := by
  cases hrawA : endpointError parseIp rawA with
  | some e =>
      rw [endpointsOr_of_error hrawA]
      cases hrawB : endpointError parseIp rawB with
      | some e' =>
          rw [endpointsOr_of_error hrawB, sameOutcome_iff, Option.some.injEq]
          constructor
          · intro h
            exact hinj e e' (Except.error.inj h)
          · rintro rfl
            rfl
      | none =>
          obtain ⟨es, -, hes⟩ := endpointsOr_of_none hrawB
          rw [hes]
          exact ⟨fun h => absurd h (not_sameOutcome_error (hB es e)), fun h => absurd h (by simp)⟩
  | none =>
      obtain ⟨esA, hparseA, hesA⟩ := endpointsOr_of_none hrawA
      rw [hesA]
      cases hrawB : endpointError parseIp rawB with
      | some e =>
          rw [endpointsOr_of_error hrawB]
          exact ⟨fun h => absurd h.symm (not_sameOutcome_error (hA esA e)),
            fun h => absurd h (by simp)⟩
      | none =>
          obtain ⟨esB, hparseB, hesB⟩ := endpointsOr_of_none hrawB
          rw [hesB]
          exact ⟨fun _ => rfl, fun _ => hsame esA esB hparseA hparseB⟩

/-- What `Load` does with an unmarshalled file. -/
def loadRead (parseIp : String → Option Ip) (sameIp : Option Ip → Option Ip → Bool)
    (flags : CLIFlags) (cfg : Config) : Except LoadError Config := do
  let servers ← endpointsOr parseIp .invalidClientServers (cfg.client.getD {}).serversRaw
  let listenAddrs ← endpointsOr parseIp .invalidServerListenAddrs
    (cfg.server.getD {}).listenAddrsRaw
  applyFlags parseIp sameIp flags (cfg.withEndpoints servers listenAddrs)

theorem load_eq {readFile : String → Except LoadError File} {flags : CLIFlags} {file : File}
    (hfile : flags.configFile ≠ "") (hread : readFile flags.configFile = .ok file) :
    load parseIp sameIp readFile flags = loadRead parseIp sameIp flags file.config := by
  unfold load readConfig loadFromFile loadRead
  rw [if_pos hfile, hread]
  show parseSections parseIp file.config >>= _ = _
  rw [parseSections_eq]
  cases endpointsOr parseIp .invalidClientServers (file.config.client.getD {}).serversRaw with
  | error e => rfl
  | ok servers =>
      cases endpointsOr parseIp .invalidServerListenAddrs
        (file.config.server.getD {}).listenAddrsRaw <;> rfl

theorem selectedMode_of_mask {flags : CLIFlags} {a b : Config}
    (h : mask parseIp flags a = mask parseIp flags b) :
    selectedMode flags a = selectedMode flags b := by
  unfold selectedMode
  by_cases hflag : flags.mode = ""
  · have hmode := congrArg Config.mode h
    have hfree : ¬ (flags.mode = "client" ∨ flags.mode = "server") := by
      rw [hflag]
      decide
    simp only [mask, if_neg hfree] at hmode
    rw [if_neg (not_not.mpr hflag), if_neg (not_not.mpr hflag), hmode]
  · rw [if_pos hflag, if_pos hflag]

/-- In client mode, files whose endpoint strings are parsed have the same outcome. -/
theorem sameOutcome_client {flags : CLIFlags} {a b : Config} {esA esB : List Endpoint}
    (hmodeA : selectedMode flags a = "client") (hmodeB : selectedMode flags b = "client")
    (hmask : maskClient parseIp flags (a.client.getD {}) =
      maskClient parseIp flags (b.client.getD {}))
    (hserver : a.server = b.server)
    (hA : parseEndpoints parseIp (a.client.getD {}).serversRaw = .ok esA)
    (hB : parseEndpoints parseIp (b.client.getD {}).serversRaw = .ok esB)
    (listenAddrs : List Endpoint) :
    SameOutcome (applyFlags parseIp sameIp flags (a.withEndpoints esA listenAddrs))
      (applyFlags parseIp sameIp flags (b.withEndpoints esB listenAddrs)) := by
  have hsame : (a.withEndpoints esA listenAddrs).server =
      (b.withEndpoints esB listenAddrs).server := by
    rw [Config.withEndpoints, Config.withEndpoints, hserver]
  have hmodeA' : selectedMode flags (a.withEndpoints esA listenAddrs) = "client" := hmodeA
  have hmodeB' : selectedMode flags (b.withEndpoints esB listenAddrs) = "client" := hmodeB
  rw [sameOutcome_iff, applyFlags_client hmodeA', applyFlags_client hmodeB',
    client_withEndpoints hA, client_withEndpoints hB, hsame]
  apply bind_congr_of_map (clientFields_congr hmask hA hB)
  intro client client' heff
  rw [ClientConfig.validate_congr heff]

/-- In server mode, files whose endpoint strings are parsed have the same outcome. -/
theorem sameOutcome_server {flags : CLIFlags} {a b : Config} {esA esB : List Endpoint}
    (hmodeA : selectedMode flags a = "server") (hmodeB : selectedMode flags b = "server")
    (hmask : maskServer parseIp flags (a.server.getD {}) =
      maskServer parseIp flags (b.server.getD {}))
    (hclient : a.client = b.client)
    (hA : parseEndpoints parseIp (a.server.getD {}).listenAddrsRaw = .ok esA)
    (hB : parseEndpoints parseIp (b.server.getD {}).listenAddrsRaw = .ok esB)
    (servers : List Endpoint) :
    SameOutcome (applyFlags parseIp sameIp flags (a.withEndpoints servers esA))
      (applyFlags parseIp sameIp flags (b.withEndpoints servers esB)) := by
  have hsame : (a.withEndpoints servers esA).client = (b.withEndpoints servers esB).client := by
    rw [Config.withEndpoints, Config.withEndpoints, hclient]
  have hmodeA' : selectedMode flags (a.withEndpoints servers esA) = "server" := hmodeA
  have hmodeB' : selectedMode flags (b.withEndpoints servers esB) = "server" := hmodeB
  rw [sameOutcome_iff, applyFlags_server hmodeA', applyFlags_server hmodeB',
    server_withEndpoints hA, server_withEndpoints hB, hsame]
  refine congrArg (overrideClient parseIp flags _ >>= ·) (funext fun _ => ?_)
  apply bind_congr_of_map (serverFields_congr hmask hA hB)
  intro server server' heff
  exact ServerConfig.validate_congr heff

/-- **In client mode** the client strings of the two files decide; the server strings, which are
parsed behind them, are equal. -/
theorem loadRead_client_iff {flags : CLIFlags} {a b : Config}
    (hmodeA : selectedMode flags a = "client") (hmodeB : selectedMode flags b = "client")
    (hmask : maskClient parseIp flags (a.client.getD {}) =
      maskClient parseIp flags (b.client.getD {}))
    (hserver : a.server = b.server) :
    SameOutcome (loadRead parseIp sameIp flags a) (loadRead parseIp sameIp flags b) ↔
      endpointError parseIp (a.client.getD {}).serversRaw =
        endpointError parseIp (b.client.getD {}).serversRaw := by
  have hlater : ∀ (c : Config) es e,
      (endpointsOr parseIp .invalidServerListenAddrs (c.server.getD {}).listenAddrsRaw >>=
        fun ls => applyFlags parseIp sameIp flags (c.withEndpoints es ls)) ≠
          .error (.invalidClientServers e) := by
    intro c es e h
    cases hraw : endpointError parseIp (c.server.getD {}).listenAddrsRaw with
    | some e' =>
        rw [endpointsOr_of_error hraw] at h
        exact absurd (Except.error.inj h) (by simp)
    | none =>
        obtain ⟨ls, -, hls⟩ := endpointsOr_of_none hraw
        rw [hls] at h
        exact absurd (later_applyFlags flags _ _ h) (by simp [LoadError.fromFile])
  unfold loadRead
  apply parsed_iff (fun _ _ => LoadError.invalidClientServers.inj) (hlater a) (hlater b)
  intro esA esB hparseA hparseB
  rw [hserver]
  cases endpointsOr parseIp .invalidServerListenAddrs (b.server.getD {}).listenAddrsRaw with
  | error e => exact SameOutcome.refl _
  | ok ls => exact sameOutcome_client hmodeA hmodeB hmask hserver hparseA hparseB ls

/-- **In server mode** the listen addresses decide, unless the client strings, which are equal and
parsed first, are refused. -/
theorem loadRead_server_iff {flags : CLIFlags} {a b : Config}
    (hmodeA : selectedMode flags a = "server") (hmodeB : selectedMode flags b = "server")
    (hmask : maskServer parseIp flags (a.server.getD {}) =
      maskServer parseIp flags (b.server.getD {}))
    (hclient : a.client = b.client) :
    SameOutcome (loadRead parseIp sameIp flags a) (loadRead parseIp sameIp flags b) ↔
      endpointError parseIp (a.client.getD {}).serversRaw ≠ none ∨
        endpointError parseIp (a.server.getD {}).listenAddrsRaw =
          endpointError parseIp (b.server.getD {}).listenAddrsRaw := by
  have hlater : ∀ (c : Config) es ls e,
      applyFlags parseIp sameIp flags (c.withEndpoints es ls) ≠
        .error (.invalidServerListenAddrs e) := by
    intro c es ls e h
    exact absurd (later_applyFlags flags _ _ h) (by simp [LoadError.fromFile])
  unfold loadRead
  cases hfirst : endpointError parseIp (a.client.getD {}).serversRaw with
  | some e =>
      rw [← hclient, endpointsOr_of_error hfirst]
      exact ⟨fun _ => Or.inl (by simp), fun _ => SameOutcome.refl _⟩
  | none =>
      obtain ⟨es, -, hes⟩ := endpointsOr_of_none hfirst
      rw [← hclient, hes, or_iff_right (by simp)]
      exact parsed_iff (fun _ _ => LoadError.invalidServerListenAddrs.inj) (hlater a es)
        (hlater b es) fun _ _ hparseA hparseB =>
          sameOutcome_server hmodeA hmodeB hmask hclient hparseA hparseB es

/-- Without a section in use nothing is masked. -/
theorem mask_of_other {flags : CLIFlags} {cfg : Config}
    (hclient : selectedMode flags cfg ≠ "client") (hserver : selectedMode flags cfg ≠ "server") :
    mask parseIp flags cfg = cfg := by
  have hmode : ¬ (flags.mode = "client" ∨ flags.mode = "server") := by
    rintro (h | h)
    · exact hclient (by rw [selectedMode, h, if_pos (by decide)])
    · exact hserver (by rw [selectedMode, h, if_pos (by decide)])
  rw [mask, if_neg hmode, if_neg hclient, if_neg hserver]

/-- **Overridden values have no influence** if and only if the overridden endpoint strings of the
two files are malformed alike. -/
theorem overridden_without_influence_iff {readA readB : String → Except LoadError File}
    {flags : CLIFlags} {a b : File} (hfile : flags.configFile ≠ "")
    (hA : readA flags.configFile = .ok a) (hB : readB flags.configFile = .ok b)
    (hmask : mask parseIp flags a.config = mask parseIp flags b.config) :
    SameOutcome (load parseIp sameIp readA flags) (load parseIp sameIp readB flags) ↔
      MalformedAlike parseIp flags a.config b.config := by
  have hmode := selectedMode_of_mask hmask
  have hmaskClient := congrArg Config.client hmask
  have hmaskServer := congrArg Config.server hmask
  simp only [mask, ← hmode] at hmaskClient hmaskServer
  rw [load_eq hfile hA, load_eq hfile hB, MalformedAlike]
  by_cases hclient : selectedMode flags a.config = "client"
  · have hother : ¬ selectedMode flags a.config = "server" := by rw [hclient]; decide
    rw [if_pos hclient, if_pos hclient] at hmaskClient
    rw [if_neg hother, if_neg hother] at hmaskServer
    rw [if_pos hclient]
    exact loadRead_client_iff hclient (hmode.symm.trans hclient) (Option.some.inj hmaskClient)
      hmaskServer
  · rw [if_neg hclient, if_neg hclient] at hmaskClient
    rw [if_neg hclient]
    by_cases hserver : selectedMode flags a.config = "server"
    · rw [if_pos hserver, if_pos hserver] at hmaskServer
      rw [if_pos hserver]
      exact loadRead_server_iff hserver (hmode.symm.trans hserver) (Option.some.inj hmaskServer)
        hmaskClient
    · have hsame : a.config = b.config := by
        rw [mask_of_other hclient hserver,
          mask_of_other (hmode ▸ hclient) (hmode ▸ hserver)] at hmask
        exact hmask
      rw [if_neg hserver, hsame]
      exact ⟨fun _ => trivial, fun _ => SameOutcome.refl _⟩

end

/-- A client file with the given servers. -/
def clientFile (servers : String) : File where
  config := { client := some { listenAddr := ":5000", serversRaw := servers } }
  servers_nil client h := by rw [← Option.some.inj h]
  listenAddrs_nil server h := absurd h (by simp)

/-- Flags that override the mode and the servers of a file. -/
def serversFlags : CLIFlags :=
  { configFile := "fproxy.yaml", mode := "client", servers := "10.0.0.1:8001/udp" }

/-- Two files with different servers, overridden. -/
theorem overridden_good_servers :
    SameOutcome
      (load (fun host => IpAddr.fromStr host.toList) (fun x y => decide (x = y))
        (fun _ => .ok (clientFile "10.0.0.2:8001/udp")) serversFlags)
      (load (fun host => IpAddr.fromStr host.toList) (fun x y => decide (x = y))
        (fun _ => .ok (clientFile "10.0.0.3:1/tcp, 10.0.0.3:2/udp")) serversFlags) := by
  refine (overridden_without_influence_iff (by decide) rfl rfl (by decide)).mpr ?_
  exact (if_pos (by decide)).mpr (by decide)

/-- A malformed string in the file is an error, although it is overridden. -/
theorem overridden_malformed_servers :
    mask (fun host => IpAddr.fromStr host.toList) serversFlags
        (clientFile "10.0.0.2:8001/udp").config =
      mask (fun host => IpAddr.fromStr host.toList) serversFlags
        (clientFile "10.0.0.2:8001").config ∧
      load (fun host => IpAddr.fromStr host.toList) (fun x y => decide (x = y))
        (fun _ => .ok (clientFile "10.0.0.2:8001")) serversFlags =
          .error (.invalidClientServers (.invalidFormat "10.0.0.2:8001")) ∧
      ¬ SameOutcome
        (load (fun host => IpAddr.fromStr host.toList) (fun x y => decide (x = y))
          (fun _ => .ok (clientFile "10.0.0.2:8001/udp")) serversFlags)
        (load (fun host => IpAddr.fromStr host.toList) (fun x y => decide (x = y))
          (fun _ => .ok (clientFile "10.0.0.2:8001")) serversFlags) := by
  have hgood : ∃ c, load (fun host => IpAddr.fromStr host.toList) (fun x y => decide (x = y))
      (fun _ => .ok (clientFile "10.0.0.2:8001/udp")) serversFlags = .ok c := ⟨_, rfl⟩
  refine ⟨by decide, rfl, ?_⟩
  obtain ⟨c, hgood⟩ := hgood
  rw [hgood]
  rintro (⟨e, he, -⟩ | ⟨-, c', -, hbad, -⟩)
  · exact absurd he (by rintro ⟨⟩)
  · exact absurd hbad (by rintro ⟨⟩)

end Fproxy.GoConfig
