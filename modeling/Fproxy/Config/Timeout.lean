import Fproxy.Config.Load

/-!
# The session timeout of a configuration

The timeout is the one that was written: on the command line, or else in the section of the file.
`load` parses it through `and_then(parse_duration)` and `unwrap_or(Duration::ZERO)`, so a text that
is no duration is treated like no text at all, and `validate` then puts the default in the place of
every zero.

* **`load_of_untimed`** — a configuration that loads without its timeouts loads with any of them.
* **`timeout_honoured_iff`** — the timeout is honoured if and only if its text denotes a positive
  duration whose seconds fit 64 bits.
* `timeout_honoured_five_minutes`, `malformed_timeout_ignored` — a good and a malformed text.
-/

set_option linter.dupNamespace false

namespace Fproxy.Config

open Fproxy.Fallible Fproxy.Text

/-- The arguments without a timeout. -/
def CliArgs.untimed (args : CliArgs) : CliArgs := { args with sessionTimeout := none }

/-- A file without timeouts. -/
def YamlConfig.untimed (yaml : YamlConfig) : YamlConfig :=
  { yaml with
    client := yaml.client.map fun client => { client with sessionTimeout := none }
    server := yaml.server.map fun server => { server with sessionTimeout := none } }

/-- The text of the timeout that counts in a mode: the command line comes before the file. -/
def timeoutText (args : CliArgs) (yaml : YamlConfig) : Mode → Option String
  | .client => args.sessionTimeout.or (yaml.client.getD {}).sessionTimeout
  | .server => args.sessionTimeout.or (yaml.server.getD {}).sessionTimeout

/-- The timeout of the section in use. -/
def Config.sessionTimeout (config : Config) : Option Duration :=
  match config.mode with
  | .client => config.client.map ClientConfig.sessionTimeout
  | .server => config.server.map ServerConfig.sessionTimeout

/-- The outcome of a load honours the text: a positive duration is configured exactly, without an
overflow of its multiplication, and a text that denotes none is an error. -/
def Honoured (text : Option String) (result : Except ConfigError Config) : Prop :=
  ∀ s, text = some s →
    (∀ count unit, Denotes s count unit → 0 < count →
      count * unit.factor.toNat < 2 ^ 64 ∧ ∀ config, result = .ok config →
        ∃ d, config.sessionTimeout = some d ∧ d.toNanos = count * unit.nanos) ∧
    ((¬ ∃ count unit, Denotes s count unit ∧ 0 < count) → ∃ e, result = .error e)

/-- The text denotes a positive duration, and its seconds fit a `u64`. -/
def Representable (s : String) : Prop :=
  ∃ count unit, Denotes s count unit ∧ 0 < count ∧ count * unit.factor.toNat < 2 ^ 64

/-! ### The timeout does not decide whether a configuration loads -/

variable {Ip : Type} {parseIp : String → Option Ip}

theorem client_untimed (yaml : YamlConfig) :
    yaml.untimed.client.getD {} = { yaml.client.getD {} with sessionTimeout := none } := by
  cases h : yaml.client <;> simp [YamlConfig.untimed, h]

theorem server_untimed (yaml : YamlConfig) :
    yaml.untimed.server.getD {} = { yaml.server.getD {} with sessionTimeout := none } := by
  cases h : yaml.server <;> simp [YamlConfig.untimed, h]

theorem buildClient_of_untimed {args : CliArgs} {yaml : YamlClientConfig} {built : ClientConfig}
    (h : buildClient parseIp args.untimed { yaml with sessionTimeout := none } = .ok built) :
    buildClient parseIp args yaml = .ok { built with
      sessionTimeout := sectionTimeout args.sessionTimeout yaml.sessionTimeout } := by
  obtain ⟨servers, hservers, h⟩ := bind_eq_ok.mp h
  rw [← Except.ok.inj h]
  exact bind_eq_ok.mpr ⟨servers, hservers, rfl⟩

theorem buildServer_of_untimed {args : CliArgs} {yaml : YamlServerConfig} {built : ServerConfig}
    (h : buildServer parseIp args.untimed { yaml with sessionTimeout := none } = .ok built) :
    buildServer parseIp args yaml = .ok { built with
      sessionTimeout := sectionTimeout args.sessionTimeout yaml.sessionTimeout } := by
  obtain ⟨listenAddrs, hlisten, h⟩ := bind_eq_ok.mp h
  rw [← Except.ok.inj h]
  exact bind_eq_ok.mpr ⟨listenAddrs, hlisten, rfl⟩

variable [DecidableEq Ip]

theorem ClientConfig.validate_timeout {client client' : ClientConfig} (timeout : Duration)
    (h : client.validate parseIp = .ok client') :
    ({ client with sessionTimeout := timeout } : ClientConfig).validate parseIp =
      .ok { client' with sessionTimeout := timeout.orDefault } := by
  obtain ⟨hlisten, hservers, hcheck, rfl⟩ := ClientConfig.validate_eq_ok.mp h
  exact ClientConfig.validate_eq_ok.mpr ⟨hlisten, hservers, hcheck, rfl⟩

theorem ServerConfig.validate_timeout {server server' : ServerConfig} (timeout : Duration)
    (h : server.validate = .ok server') :
    ({ server with sessionTimeout := timeout } : ServerConfig).validate =
      .ok { server' with sessionTimeout := timeout.orDefault } := by
  obtain ⟨hlisten, htarget, rfl⟩ := ServerConfig.validate_eq_ok.mp h
  exact ServerConfig.validate_eq_ok.mpr ⟨hlisten, htarget, rfl⟩

variable {loadFromFile : String → Except ConfigError YamlConfig}

theorem readConfig_untimed (args : CliArgs) :
    readConfig (fun path => (loadFromFile path).map YamlConfig.untimed) args.untimed =
      (readConfig loadFromFile args).map YamlConfig.untimed := by
  unfold readConfig CliArgs.untimed
  cases args.config <;> rfl

/-- **A configuration that loads without its timeouts loads with any of them**, and the timeout is
what the text parses to, or the default. -/
theorem load_of_untimed {args : CliArgs} {yaml : YamlConfig} {bare : Config}
    (hyaml : readConfig loadFromFile args = .ok yaml)
    (hbare : load parseIp (fun path => (loadFromFile path).map YamlConfig.untimed) args.untimed =
      .ok bare) :
    ∃ config, load parseIp loadFromFile args = .ok config ∧ config.sessionTimeout =
      some (((timeoutText args yaml bare.mode).bind parseDuration).getD .zero).orDefault := by
  have hread : ∀ yaml', readConfig (fun path => (loadFromFile path).map YamlConfig.untimed)
      args.untimed = .ok yaml' → yaml' = yaml.untimed := by
    intro yaml' h
    rw [readConfig_untimed, hyaml] at h
    exact (Except.ok.inj h).symm
  obtain ⟨yaml', hyaml', ⟨built, client, hmode, hbuilt, hvalid, rfl⟩ |
    ⟨built, server, hmode, hbuilt, hvalid, rfl⟩⟩ := load_eq_ok.mp hbare
  · obtain rfl := hread yaml' hyaml'
    rw [client_untimed] at hbuilt
    exact ⟨_, load_eq_ok.mpr ⟨yaml, hyaml, Or.inl ⟨_, _, hmode, buildClient_of_untimed hbuilt,
      ClientConfig.validate_timeout _ hvalid, rfl⟩⟩, rfl⟩
  · obtain rfl := hread yaml' hyaml'
    rw [server_untimed] at hbuilt
    exact ⟨_, load_eq_ok.mpr ⟨yaml, hyaml, Or.inr ⟨_, _, hmode, buildServer_of_untimed hbuilt,
      ServerConfig.validate_timeout _ hvalid, rfl⟩⟩, rfl⟩

/-! ### The text of the timeout -/

theorem denotes_iff {s : String} {count : ℕ} {unit : TimeUnit} :
    Denotes s count unit ↔ ∃ n, readCount s = some (n, unit) ∧ n.toNat = count := by
  constructor
  · intro h
    have hcount : count < 2 ^ 64 := by
      obtain ⟨_, _, _, _, _, _, _, _, hlt, _⟩ := h
      exact hlt
    have hn : (UInt64.ofNat count).toNat = count := by
      rw [UInt64.toNat_ofNat', Nat.mod_eq_of_lt hcount]
    exact ⟨UInt64.ofNat count, readCount_iff.mpr (by rw [hn]; exact h), hn⟩
  · rintro ⟨n, h, rfl⟩
    exact readCount_iff.mp h

/-- A text denotes one duration only. -/
theorem denotes_unique {s : String} {count count' : ℕ} {unit unit' : TimeUnit}
    (h : Denotes s count unit) (h' : Denotes s count' unit') : count = count' ∧ unit = unit' := by
  obtain ⟨n, hn, rfl⟩ := denotes_iff.mp h
  obtain ⟨n', hn', rfl⟩ := denotes_iff.mp h'
  obtain ⟨rfl, rfl⟩ := Prod.mk.inj (Option.some.inj (hn.symm.trans hn'))
  exact ⟨rfl, rfl⟩

theorem orDefault_of_pos {d : Duration} (h : 0 < d.toNanos) : d.orDefault = d := by
  have hzero : ¬ d.isZero = true := by
    rw [isZero_iff]
    omega
  rw [Duration.orDefault, if_neg hzero]

theorem TimeUnit.nanos_pos (unit : TimeUnit) : 0 < unit.nanos := by
  cases unit <;> decide

/-- A representable text is parsed to the duration it denotes. -/
theorem orDefault_of_representable {s : String} {count : ℕ} {unit : TimeUnit}
    (h : Denotes s count unit) (hpos : 0 < count) (hfits : count * unit.factor.toNat < 2 ^ 64) :
    ((parseDuration s).getD .zero).orDefault.toNanos = count * unit.nanos := by
  obtain ⟨n, hn, rfl⟩ := denotes_iff.mp h
  have hexact := (toNanos_toDuration_iff unit n).mpr hfits
  have hlong : 0 < (unit.toDuration n).toNanos := by
    rw [hexact]
    exact Nat.mul_pos hpos unit.nanos_pos
  rw [parseDuration, hn, Option.map_some, Option.getD_some, orDefault_of_pos hlong, hexact]

/-- **The timeout is honoured** if and only if its text, where there is one, is representable. -/
theorem timeout_honoured_iff {args : CliArgs} {yaml : YamlConfig} {bare : Config}
    (hyaml : readConfig loadFromFile args = .ok yaml)
    (hbare : load parseIp (fun path => (loadFromFile path).map YamlConfig.untimed) args.untimed =
      .ok bare) :
    Honoured (timeoutText args yaml bare.mode) (load parseIp loadFromFile args) ↔
      ∀ s, timeoutText args yaml bare.mode = some s → Representable s := by
  obtain ⟨config, hload, htimeout⟩ := load_of_untimed hyaml hbare
  constructor
  · intro h s hs
    obtain ⟨hexact, herror⟩ := h s hs
    by_contra hnot
    by_cases hden : ∃ count unit, Denotes s count unit ∧ 0 < count
    · obtain ⟨count, unit, hden, hpos⟩ := hden
      exact hnot ⟨count, unit, hden, hpos, (hexact count unit hden hpos).1⟩
    · obtain ⟨e, he⟩ := herror hden
      rw [hload] at he
      exact absurd he (by rintro ⟨⟩)
  · intro h s hs
    obtain ⟨count, unit, hden, hpos, hfits⟩ := h s hs
    refine ⟨?_, fun hnone => absurd ⟨count, unit, hden, hpos⟩ hnone⟩
    intro count' unit' hden' _
    obtain ⟨rfl, rfl⟩ := denotes_unique hden hden'
    refine ⟨hfits, fun config' hconfig' => ?_⟩
    rw [hload] at hconfig'
    rw [← Except.ok.inj hconfig', htimeout, hs, Option.bind_some]
    exact ⟨_, rfl, orDefault_of_representable hden hpos hfits⟩

/-- A server whose file gives only its addresses. -/
def serverArgs (timeout : String) : CliArgs :=
  { config := some "fproxy.yaml", mode := some "server", sessionTimeout := some timeout }

/-- The file of that server, with a timeout that the command line overrides. -/
def serverFile : String → Except ConfigError YamlConfig := fun _ =>
  .ok { server := some { listenAddrs := some ":8001/udp", targetAddr := some "10.0.0.1:9000"
                         sessionTimeout := some "90s" } }

/-- Five minutes are five minutes. -/
theorem timeout_honoured_five_minutes :
    Honoured (some "5m") (load (fun host => some host) serverFile (serverArgs "5m")) := by
  have hbare : ∃ bare, load (fun host => some host)
      (fun path => (serverFile path).map YamlConfig.untimed) (serverArgs "5m").untimed = .ok bare ∧
        bare.mode = .server :=
    ⟨_, rfl, rfl⟩
  obtain ⟨bare, hbare, hmode⟩ := hbare
  have h := timeout_honoured_iff rfl hbare
  rw [hmode] at h
  refine h.mpr fun s hs => ?_
  rw [← Option.some.inj hs]
  have hdigits : ∀ c ∈ ['5'], c.isDigit = true := List.all_eq_true.mp rfl
  exact ⟨5, .m, ⟨[], ['5'], ['m'], by decide, Or.inl rfl, by decide, hdigits, rfl, by decide,
    List.mem_cons_self⟩, by decide, by decide⟩

/-- A text that is no duration is not refused: the default takes its place. -/
theorem malformed_timeout_ignored :
    (∃ config d, load (fun host => some host) serverFile (serverArgs "5 minutes") = .ok config ∧
      config.sessionTimeout = some d ∧ d.toNanos = 60 * 1000000000) ∧
      ¬ Honoured (some "5 minutes")
        (load (fun host => some host) serverFile (serverArgs "5 minutes")) := by
  have hload : ∃ config d,
      load (fun host => some host) serverFile (serverArgs "5 minutes") = .ok config ∧
        config.sessionTimeout = some d ∧ d.toNanos = 60 * 1000000000 :=
    ⟨_, _, rfl, rfl, rfl⟩
  refine ⟨hload, fun h => ?_⟩
  obtain ⟨config, -, hload, -⟩ := hload
  have hread : readCount "5 minutes" = none := by decide
  obtain ⟨e, he⟩ := (h _ rfl).2 (by
    rintro ⟨count, unit, hden, -⟩
    obtain ⟨n, hn, -⟩ := denotes_iff.mp hden
    rw [hread] at hn
    exact absurd hn (by simp))
  rw [hload] at he
  exact absurd he (by rintro ⟨⟩)

end Fproxy.Config
