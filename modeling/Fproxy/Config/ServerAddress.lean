import Fproxy.Config.Load
import Fproxy.Net.Parser

/-!
# Server addresses of a client

A client configuration is meant to name one server: every server address is `host:port` or
`[host]:port`, and the hosts denote one IP address.  `Endpoint::parse` checks the host only.  What
stands behind a closing bracket is never looked at, so `[1.2.3.4]` passes without a port, and a
host that begins with a colon passes before `normalize_listen_addr` takes it for an empty one.

* **`names_one_ip_iff`** — the accepted servers name one IP address if and only if each of them is
  written so that the bracket is followed by the port and only an empty host begins with a colon.
* `names_one_ip_two_servers`, `server_without_port` — a client with two servers, and one whose
  server has no port.
-/

namespace Fproxy

open Fproxy.Config Fproxy.Fallible Fproxy.Text

/-- `str::parse::<IpAddr>()`. -/
def IpAddr.parse (host : String) : Option IpAddr := IpAddr.fromStr host.toList

namespace Config

/-- What the form of an address leaves open: the texts that are ports, and what an empty host in
brackets stands for, if anything. -/
structure AddressSyntax where
  isPort : List Char → Prop
  colon_not_mem : ∀ port, isPort port → ':' ∉ port
  emptyHost : Option IpAddr

variable (R : AddressSyntax)

/-- The host denotes the address. -/
def AddressSyntax.Denotes (host : List Char) (ip : IpAddr) : Prop :=
  IpAddr.fromStr host = some ip ∨ (host = [] ∧ R.emptyHost = some ip)

/-- The text is `host:port` or `[host]:port`, with the host denoting the address. -/
def AddressSyntax.Form (address : List Char) (ip : IpAddr) : Prop :=
  ∃ host port, (address = host ++ ':' :: port ∨ address = '[' :: (host ++ ']' :: ':' :: port)) ∧
    R.isPort port ∧ R.Denotes host ip

/-- The servers name one IP address. -/
def AddressSyntax.NamesOneIp (servers : List Endpoint) : Prop :=
  ∃ ip, ∀ e ∈ servers, R.Form e.address.toList ip

/-- A bracketed host is followed by a colon and the port; otherwise the port stands behind the
last colon, and nothing stands before it where the text begins with a colon. -/
def AddressSyntax.WellWritten (address : List Char) : Prop :=
  if address.head? = some '[' then
    ∃ host port, address = '[' :: (host ++ ']' :: ':' :: port) ∧ ']' ∉ host ∧ R.isPort port ∧
      (host = [] → R.emptyHost.isSome)
  else
    ∃ host port, address = host ++ ':' :: port ∧ R.isPort port ∧
      (address.head? = some ':' → host = [])

/-- The server string of a client: the command line comes before the file. -/
def serversText (args : CliArgs) (yaml : YamlConfig) : String :=
  (args.servers.or (yaml.client.getD {}).servers).getD ""

variable {R : AddressSyntax}

theorem AddressSyntax.Denotes.no_brackets {host : List Char} {ip : IpAddr}
    (h : R.Denotes host ip) : '[' ∉ host ∧ ']' ∉ host := by
  rcases h with h | ⟨rfl, -⟩
  · exact ⟨IpAddr.openBracket_not_mem h, IpAddr.closeBracket_not_mem h⟩
  · exact ⟨List.not_mem_nil, List.not_mem_nil⟩

theorem openBracket_not_head (port : List Char) : (':' :: port).head? ≠ some '[' := by
  rw [List.head?_cons]
  decide

theorem head_append_ne {a : Char} {host rest : List Char} (h : a ∉ host)
    (hrest : rest.head? ≠ some a) : (host ++ rest).head? ≠ some a := by
  cases host with
  | nil => exact hrest
  | cons c host =>
      rw [List.cons_append, List.head?_cons]
      intro hc
      exact h (by rw [Option.some.inj hc]; exact List.mem_cons_self)

/-- A text with brackets and no colon before them has no other form. -/
theorem form_bracket_iff {host rest : List Char} {ip : IpAddr} (hhost : ']' ∉ host) :
    R.Form ('[' :: (host ++ ']' :: rest)) ip ↔
      ∃ port, rest = ':' :: port ∧ R.isPort port ∧ R.Denotes host ip := by
  constructor
  · rintro ⟨host', port, haddr | haddr, hport, hden⟩
    · have hhead := head_append_ne hden.no_brackets.1 (openBracket_not_head port)
      rw [← haddr] at hhead
      exact absurd List.head?_cons hhead
    · obtain ⟨rfl, hrest⟩ := Scan.first_unique (List.cons.inj haddr).2 hhost hden.no_brackets.2
      exact ⟨port, hrest, hport, hden⟩
  · rintro ⟨port, rfl, hport, hden⟩
    exact ⟨host, port, Or.inr rfl, hport, hden⟩

/-- A text without a bracket in front has its host before the last colon. -/
theorem form_colon_iff {host port : List Char} {ip : IpAddr}
    (hhead : (host ++ ':' :: port).head? ≠ some '[') (hcolon : ':' ∉ port) :
    R.Form (host ++ ':' :: port) ip ↔ R.isPort port ∧ R.Denotes host ip := by
  constructor
  · rintro ⟨host', port', haddr | haddr, hport, hden⟩
    · obtain ⟨rfl, rfl⟩ := Scan.last_unique haddr hcolon (R.colon_not_mem port' hport)
      exact ⟨hport, hden⟩
    · rw [haddr] at hhead
      exact absurd List.head?_cons hhead
  · rintro ⟨hport, hden⟩
    exact ⟨host, port, Or.inl rfl, hport, hden⟩

/-! ### One address -/

/-- A host that was let through. -/
def Accepted (host : List Char) : Prop := host = [] ∨ ∃ ip, IpAddr.fromStr host = some ip

theorem Accepted.denotes_iff {host : List Char} (h : Accepted host) :
    (∃ ip, R.Denotes host ip) ↔ (host = [] → R.emptyHost.isSome) := by
  constructor
  · rintro ⟨ip, hip | ⟨-, hip⟩⟩ rfl
    · exact absurd hip (by simp [IpAddr.fromStr_nil])
    · rw [hip]
      rfl
  · intro hempty
    rcases h with rfl | ⟨ip, hip⟩
    · obtain ⟨ip, hip⟩ := Option.isSome_iff_exists.mp (hempty rfl)
      exact ⟨ip, Or.inr ⟨rfl, hip⟩⟩
    · exact ⟨ip, Or.inl hip⟩

/-- A bracketed host that was let through is left as it is. -/
theorem normalize_bracket {address : String} {host rest : List Char}
    (haddr : address.toList = '[' :: (host ++ ']' :: rest)) (h : Accepted host) :
    normalizeListenAddr address = address := by
  have hempty : ¬ "[:]:".toList <+: address.toList := by
    rintro ⟨t, ht⟩
    rw [haddr] at ht
    have hcons : ':' :: ']' :: ':' :: t = host ++ ']' :: rest := (List.cons.inj ht).2
    rcases h with rfl | ⟨ip, hip⟩
    · exact absurd (List.cons.inj hcons).1 (by decide)
    · have hsplit : [':'] ++ ']' :: (':' :: t) = host ++ ']' :: rest := hcons
      have hhost := (Scan.first_unique hsplit (by decide) (IpAddr.closeBracket_not_mem hip)).1
      have hnone : IpAddr.fromStr [':'] = none := by decide
      rw [← hhost, hnone] at hip
      exact absurd hip (by simp)
  rw [normalizeListenAddr, haddr, List.head?_cons, if_neg (by decide), ← haddr, if_neg hempty]

/-- **In brackets**: the form is kept if and only if the port follows the bracket. -/
theorem form_of_bracketHost {address : String} {host : List Char}
    (hhost : BracketHost address.toList host) (h : Accepted host) :
    (∃ ip, R.Form (normalizeListenAddr address).toList ip) ↔ R.WellWritten address.toList := by
  obtain ⟨rest, haddr, hclose⟩ := hhost
  rw [normalize_bracket haddr h, haddr, AddressSyntax.WellWritten, List.head?_cons, if_pos rfl]
  simp only [form_bracket_iff hclose]
  constructor
  · rintro ⟨ip, port, rfl, hport, hden⟩
    exact ⟨host, port, rfl, hclose, hport, h.denotes_iff.mp ⟨ip, hden⟩⟩
  · rintro ⟨host', port, heq, hclose', hport, hempty⟩
    obtain ⟨rfl, rfl⟩ := Scan.first_unique (List.cons.inj heq).2 hclose hclose'
    obtain ⟨ip, hden⟩ := h.denotes_iff.mpr hempty
    exact ⟨ip, port, rfl, hport, hden⟩

/-- What is read as a host is the whole text before the last colon. -/
theorem wellWritten_colon_iff {host port : List Char}
    (hhead : (host ++ ':' :: port).head? ≠ some '[') (hcolon : ':' ∉ port) :
    R.WellWritten (host ++ ':' :: port) ↔
      R.isPort port ∧ ((host ++ ':' :: port).head? = some ':' → host = []) := by
  rw [AddressSyntax.WellWritten, if_neg hhead]
  constructor
  · rintro ⟨host', port', heq, hport, hempty⟩
    obtain ⟨rfl, rfl⟩ := Scan.last_unique heq hcolon (R.colon_not_mem port' hport)
    exact ⟨hport, hempty⟩
  · rintro ⟨hport, hempty⟩
    exact ⟨host, port, rfl, hport, hempty⟩

/-- **Without brackets**: the form is kept if and only if only an empty host begins with a
colon. -/
theorem form_of_colonHost {address : String} {host : List Char}
    (hhost : ColonHost address.toList host) (h : Accepted host) :
    (∃ ip, R.Form (normalizeListenAddr address).toList ip) ↔ R.WellWritten address.toList := by
  obtain ⟨hhead, port, haddr, hcolon⟩ := hhost
  rw [haddr] at hhead
  by_cases hfirst : (host ++ ':' :: port).head? = some ':'
  · -- the text becomes that of `0.0.0.0`, whatever stands before the last colon
    have hnorm : (normalizeListenAddr address).toList =
        ("0.0.0.0".toList ++ host) ++ ':' :: port := by
      rw [normalizeListenAddr, haddr, if_pos hfirst, String.toList_append, haddr,
        List.append_assoc]
    have hzero : (("0.0.0.0".toList ++ host) ++ ':' :: port).head? ≠ some '[' := by
      rw [List.append_assoc]
      exact fun hc => absurd (Option.some.inj hc) (by decide)
    rw [hnorm, haddr, wellWritten_colon_iff hhead hcolon]
    simp only [form_colon_iff hzero hcolon, hfirst, true_imp_iff]
    constructor
    · rintro ⟨ip, hport, hden⟩
      refine ⟨hport, ?_⟩
      cases host with
      | nil => rfl
      | cons c host =>
          have hc : c = ':' := Option.some.inj hfirst
          rcases hden with hip | ⟨hnil, -⟩
          · rw [hc, IpAddr.fromStr_anyHost_colon] at hip
            exact absurd hip (by simp)
          · exact absurd hnil (by simp)
    · rintro ⟨hport, rfl⟩
      exact ⟨.v4 0#32, hport, Or.inl (by decide)⟩
  · have hnorm : normalizeListenAddr address = address := by
      have hempty : ¬ "[:]:".toList <+: host ++ ':' :: port := by
        rintro ⟨t, ht⟩
        exact hhead (by rw [← ht]; rfl)
      rw [normalizeListenAddr, haddr, if_neg hfirst, if_neg hempty]
    have hne : host ≠ [] := by
      rintro rfl
      exact hfirst rfl
    rw [hnorm, haddr, wellWritten_colon_iff hhead hcolon]
    simp only [form_colon_iff hhead hcolon]
    constructor
    · rintro ⟨ip, hport, -⟩
      exact ⟨hport, fun hc => absurd hc hfirst⟩
    · rintro ⟨hport, -⟩
      obtain ⟨ip, hden⟩ : ∃ ip, R.Denotes host ip :=
        h.denotes_iff.mpr fun hnil => absurd hnil hne
      exact ⟨ip, hport, hden⟩

/-- **The address of an endpoint** has the form if and only if it is well written. -/
theorem form_iff_wellWritten {item : String} {e : Endpoint}
    (h : Endpoint.parse IpAddr.parse item = .ok e) :
    (∃ ip, R.Form e.address.toList ip) ↔ R.WellWritten (addressPart item).toList := by
  obtain ⟨address, protocol, proto, host, hsplit, -, hhost, hvalid, rfl⟩ := parse_eq_ok.mp h
  have hpart : addressPart item = address := by
    rw [addressPart, hsplit]
    rfl
  have hacc : Accepted host.toList := by
    rcases hvalid with rfl | hip
    · exact Or.inl rfl
    · exact Or.inr (Option.isSome_iff_exists.mp hip)
  rw [hpart]
  rcases extractHost_eq_ok.mp hhost with hbracket | hcolon
  · exact form_of_bracketHost hbracket hacc
  · exact form_of_colonHost hcolon hacc

/-- An address of the form has its host found again by `validate`. -/
theorem parseHostIp_of_form {address : String} {ip : IpAddr} (h : R.Form address.toList ip) :
    ∃ found, parseHostIp IpAddr.parse address = .ok found ∧ found.or R.emptyHost = some ip := by
  obtain ⟨host, port, haddr, hport, hden⟩ := h
  have hhost : extractHost address = .ok (String.ofList host) := by
    rw [extractHost_eq_ok, String.toList_ofList]
    rcases haddr with haddr | haddr
    · right
      refine ⟨?_, port, haddr, R.colon_not_mem port hport⟩
      rw [haddr]
      exact head_append_ne hden.no_brackets.1 (openBracket_not_head port)
    · exact Or.inl ⟨':' :: port, haddr, hden.no_brackets.2⟩
  unfold parseHostIp
  rw [hhost]
  rcases hden with hip | ⟨rfl, hempty⟩
  · have hne : String.ofList host ≠ "" := by
      intro hnil
      have hhostnil : host = [] := by rw [← String.toList_ofList (l := host), hnil]; rfl
      rw [hhostnil, IpAddr.fromStr_nil] at hip
      exact absurd hip (by simp)
    have hparse : IpAddr.parse (String.ofList host) = some ip := by
      rw [IpAddr.parse, String.toList_ofList, hip]
    exact ⟨some ip, by simp only [if_neg hne, hparse], rfl⟩
  · exact ⟨none, rfl, hempty⟩

/-- The checks of `validate` leave one address, if each server has one. -/
theorem namesOneIp_iff {servers : List Endpoint} (hne : servers ≠ [])
    (hcheck : checkServers IpAddr.parse servers = .ok ()) :
    R.NamesOneIp servers ↔ ∀ e ∈ servers, ∃ ip, R.Form e.address.toList ip := by
  constructor
  · rintro ⟨ip, h⟩ e he
    exact ⟨ip, h e he⟩
  · intro h
    obtain ⟨first, rest, rfl⟩ := List.exists_cons_of_ne_nil hne
    obtain ⟨ip, hip⟩ := h first List.mem_cons_self
    refine ⟨ip, fun e he => ?_⟩
    rcases checkServers_eq_ok.mp hcheck with hlen | ⟨found, hfound⟩
    · have hrest : rest = [] := List.eq_nil_of_length_eq_zero (by simpa using hlen)
      rw [hrest] at he
      rw [List.mem_singleton.mp he]
      exact hip
    · obtain ⟨ip', hip'⟩ := h e he
      obtain ⟨o, ho, hofirst⟩ := parseHostIp_of_form hip
      obtain ⟨o', ho', hoe⟩ := parseHostIp_of_form hip'
      have hsame : o = o' := by
        rw [hfound first List.mem_cons_self] at ho
        rw [hfound e he] at ho'
        rw [← Except.ok.inj ho, ← Except.ok.inj ho']
      rw [hsame, hoe] at hofirst
      rw [← Option.some.inj hofirst]
      exact hip'

/-- **The accepted servers of a client name one IP address** if and only if each of them is well
written. -/
theorem names_one_ip_iff (R : AddressSyntax)
    {loadFromFile : String → Except ConfigError YamlConfig} {args : CliArgs} {yaml : YamlConfig}
    {config : Config} (hyaml : readConfig loadFromFile args = .ok yaml)
    (hload : load IpAddr.parse loadFromFile args = .ok config) (hmode : config.mode = .client) :
    (∃ client, config.client = some client ∧ R.NamesOneIp client.servers) ↔
      ∀ item ∈ items (serversText args yaml), R.WellWritten (addressPart item).toList := by
  obtain ⟨yaml', hyaml', ⟨built, client, -, hbuilt, hvalid, rfl⟩ | ⟨_, _, -, -, -, rfl⟩⟩ :=
    load_eq_ok.mp hload
  · obtain rfl := Except.ok.inj (hyaml'.symm.trans hyaml)
    obtain ⟨servers, hservers, hb⟩ := bind_eq_ok.mp hbuilt
    obtain ⟨-, hne, hcheck, hclient⟩ := ClientConfig.validate_eq_ok.mp hvalid
    have hsame : client.servers = servers := by rw [hclient, ← Except.ok.inj hb]
    rw [← Except.ok.inj hb] at hne hcheck
    have hitems := parseList_eq_ok.mp hservers
    have hone : R.NamesOneIp client.servers ↔
        ∀ item ∈ items (serversText args yaml'), R.WellWritten (addressPart item).toList := by
      rw [hsame, namesOneIp_iff hne hcheck]
      exact forall_mem_iff hitems fun _ _ hparse => form_iff_wellWritten hparse
    constructor
    · rintro ⟨client', hsome, hnames⟩
      rw [← Option.some.inj hsome] at hnames
      exact hone.mp hnames
    · exact fun hwell => ⟨client, rfl, hone.mpr hwell⟩
  · exact absurd hmode (by simp)

/-- The ports are the decimal numbers of 16 bits, and an empty host in brackets is none. -/
def AddressSyntax.strict : AddressSyntax where
  isPort port := port ≠ [] ∧ (∀ c ∈ port, c.isDigit = true) ∧ decimal port < 65536
  colon_not_mem port h hc := absurd (h.2.1 ':' hc) (by decide)
  emptyHost := none

/-- Any text without a colon is a port, and an empty host in brackets stands for `0.0.0.0`. -/
def AddressSyntax.lenient : AddressSyntax where
  isPort port := ':' ∉ port
  colon_not_mem _ h := h
  emptyHost := some (.v4 0#32)

/-- A client on port 5000 with the given servers. -/
def clientArgs (servers : String) : CliArgs :=
  { mode := some "client", listen := some ":5000", servers := some servers }

/-- A client with two servers. -/
theorem names_one_ip_two_servers :
    ∃ config client, load IpAddr.parse (fun p => .error (.fileReadError p))
        (clientArgs "1.2.3.4:80/udp, [1.2.3.4]:81/tcp") = .ok config ∧
      config.client = some client ∧ AddressSyntax.strict.NamesOneIp client.servers := by
  have hport : ∀ port ∈ ["80".toList, "81".toList], AddressSyntax.strict.isPort port := by
    intro port hport
    simp only [List.mem_cons, List.not_mem_nil, or_false] at hport
    rcases hport with rfl | rfl <;> exact ⟨by decide, List.all_eq_true.mp rfl, by decide⟩
  have hitems : items (serversText (clientArgs "1.2.3.4:80/udp, [1.2.3.4]:81/tcp") {}) =
      ["1.2.3.4:80/udp", "[1.2.3.4]:81/tcp"] := by decide
  have hload : ∃ config, load IpAddr.parse (fun p => .error (.fileReadError p))
      (clientArgs "1.2.3.4:80/udp, [1.2.3.4]:81/tcp") = .ok config ∧ config.mode = .client :=
    ⟨_, rfl, rfl⟩
  obtain ⟨config, hload, hmode⟩ := hload
  obtain ⟨client, hclient, hnames⟩ := (names_one_ip_iff .strict rfl hload hmode).mpr (by
    rw [hitems]
    intro item hitem
    simp only [List.mem_cons, List.not_mem_nil, or_false] at hitem
    rcases hitem with rfl | rfl
    · exact ⟨"1.2.3.4".toList, "80".toList, by decide, hport _ (by simp),
        fun hc => absurd hc (by decide)⟩
    · exact ⟨"1.2.3.4".toList, "81".toList, by decide, by decide, hport _ (by simp),
        fun hc => absurd hc (by decide)⟩)
  exact ⟨config, client, hload, hclient, hnames⟩

/-- A server without a port is accepted. -/
theorem server_without_port :
    ∃ config client, load IpAddr.parse (fun p => .error (.fileReadError p))
        (clientArgs "[1.2.3.4]/udp") = .ok config ∧ config.mode = .client ∧
      config.client = some client ∧ ¬ AddressSyntax.lenient.NamesOneIp client.servers := by
  refine ⟨_, _, rfl, rfl, rfl, ?_⟩
  rintro ⟨ip, h⟩
  have hform : AddressSyntax.lenient.Form ('[' :: ("1.2.3.4".toList ++ ']' :: [])) ip :=
    h _ List.mem_cons_self
  obtain ⟨port, hport, -⟩ := (form_bracket_iff (by decide)).mp hform
  exact absurd hport (by simp)

end Config

end Fproxy
