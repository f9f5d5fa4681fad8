import Fproxy.GoConfig.Endpoint
import Fproxy.Net.Parser

/-!
# One endpoint syntax for two programs

The rewrite in Rust is to read the configurations of the Go program.  Every endpoint of the Go
parser is one of the Rust parser, with the same protocol and host.  The converse fails: the Rust
parser looks for the first `]` or the last colon and no further.

* **`extractHost_iff`** — Go finds a host if and only if Rust finds it and no delimiter of the
  address is misplaced.
* **`parses_alike_iff`** — the parsers agree on a string if and only if it is no endpoint with a
  misplaced delimiter.
* `rust_accepts_missing_port` — `[1.2.3.4]/udp` is an endpoint for the Rust parser only.
-/

namespace Fproxy.GoConfig

open Fproxy.Config Fproxy.Fallible Fproxy.Text

/-- A delimiter is out of place: behind the closing bracket stands something else than a colon and
a port, or a colon or bracket is part of the host or the port. -/
def Misplaced (address host : List Char) : Prop :=
  (∃ rest, address = '[' :: (host ++ ']' :: rest) ∧ ']' ∉ host ∧
      ('[' ∈ host ∨ ¬ ∃ port, rest = ':' :: port ∧ NoDelimiter port)) ∨
    (address.head? ≠ some '[' ∧ ∃ port, address = host ++ ':' :: port ∧ ':' ∉ port ∧
      ¬ (NoDelimiter host ∧ NoDelimiter port))

theorem bracketAddress_iff {address host : List Char} (hhost : BracketHost address host) :
    (∃ port, BracketAddress address host port) ↔ ¬ Misplaced address host := by
  obtain ⟨rest, haddr, hclose⟩ := hhost
  constructor
  · rintro ⟨port, haddr', hopen, -, hport⟩ (⟨rest', hrest', -, hbad⟩ | ⟨hhead, -⟩)
    · have hrest : rest' = ':' :: port :=
        (Scan.first_unique (List.cons.inj (hrest'.symm.trans haddr')).2 hclose hclose).2
      rcases hbad with hm | hnone
      · exact hopen hm
      · exact hnone ⟨port, hrest, hport⟩
    · exact hhead (by rw [haddr, List.head?_cons])
  · intro h
    by_contra hnone
    refine h (Or.inl ⟨rest, haddr, hclose, ?_⟩)
    by_contra hgood
    obtain ⟨hopen, hport⟩ := not_or.mp hgood
    obtain ⟨port, hrest, hport⟩ := not_not.mp hport
    exact hnone ⟨port, by rw [haddr, hrest], hopen, hclose, hport⟩

theorem colonAddress_iff {address host : List Char} (hhost : ColonHost address host) :
    (∃ port, ColonAddress address host port) ↔ ¬ Misplaced address host := by
  obtain ⟨hhead, port, haddr, hcolon⟩ := hhost
  constructor
  · rintro ⟨port', haddr', hhost, hport'⟩ (⟨rest, hrest, -⟩ | ⟨-, port'', haddr'', hcolon'', hbad⟩)
    · exact hhead (by rw [hrest, List.head?_cons])
    · obtain ⟨-, hport⟩ := Scan.last_unique (haddr''.symm.trans haddr') hcolon'' hport'.1
      exact hbad ⟨hhost, by rw [hport]; exact hport'⟩
  · intro h
    by_contra hnone
    refine h (Or.inr ⟨hhead, port, haddr, hcolon, ?_⟩)
    rintro ⟨hhost, hport⟩
    exact hnone ⟨port, haddr, hhost, hport⟩

/-- **Go finds a host** if and only if Rust finds it and no delimiter is misplaced. -/
theorem extractHost_iff {address host : String} :
    extractHost address = .ok host ↔
      Config.extractHost address = .ok host ∧ ¬ Misplaced address.toList host.toList := by
  have hport : ∀ {P : List Char → Prop}, (∃ port : String, P port.toList) ↔ ∃ port, P port := by
    intro P
    constructor
    · rintro ⟨port, h⟩
      exact ⟨port.toList, h⟩
    · rintro ⟨port, h⟩
      exact ⟨String.ofList port, by rw [String.toList_ofList]; exact h⟩
  have hgo : extractHost address = .ok host ↔
      (∃ port, BracketAddress address.toList host.toList port) ∨
        ∃ port, ColonAddress address.toList host.toList port := by
    rw [extractHost_eq_ok, ← hport, ← hport, ← exists_or]
    simp only [splitHostPort_eq_ok]
  rw [hgo, Config.extractHost_eq_ok]
  constructor
  · rintro (⟨port, h⟩ | ⟨port, h⟩)
    · have hhost : BracketHost address.toList host.toList := ⟨':' :: port, h.1, h.2.2.1⟩
      exact ⟨Or.inl hhost, (bracketAddress_iff hhost).mp ⟨port, h⟩⟩
    · have hhost : ColonHost address.toList host.toList := by
        refine ⟨?_, port, h.1, h.2.2.1⟩
        intro hc
        have hm : '[' ∈ address.toList := List.mem_of_head? hc
        rw [h.1] at hm
        simp [h.2.1.2.1, h.2.2.2.1] at hm
      exact ⟨Or.inr hhost, (colonAddress_iff hhost).mp ⟨port, h⟩⟩
  · rintro ⟨hhost | hhost, h⟩
    · exact Or.inl ((bracketAddress_iff hhost).mpr h)
    · exact Or.inr ((colonAddress_iff hhost).mpr h)

section

variable {Ip : Type} [ToLower] (parseIp : String → Option Ip)

/-- Both parsers accept the string or neither does; they read the same protocol and the same
host. -/
def ParsesAlike (s : String) : Prop :=
  ((∃ e, Config.Endpoint.parse parseIp s = .ok e) ↔ ∃ e, parseEndpoint parseIp s = .ok e) ∧
    ∀ e e', Config.Endpoint.parse parseIp s = .ok e → parseEndpoint parseIp s = .ok e' →
      protocolName e.protocol = e'.protocol ∧
        ∃ host, Config.extractHost (addressPart s) = .ok host ∧
          extractHost (addressPart s) = .ok host

/-- An endpoint string, with an empty host or a valid one, and a misplaced delimiter. -/
def OddEndpoint (s : String) : Prop :=
  ∃ address protocol host, split '/' s = [address, protocol] ∧
    (toLowercase protocol = "udp" ∨ toLowercase protocol = "tcp") ∧
    (host = "" ∨ isValidIp parseIp host = true) ∧ Misplaced address.toList host.toList

omit [ToLower] in
theorem parseProtocol_isOk {s : String} :
    (∃ proto, parseProtocol s = .ok proto) ↔ toLowercase s = "udp" ∨ toLowercase s = "tcp" := by
  constructor
  · rintro ⟨proto, h⟩
    have hname := parseProtocol_eq_ok.mp h
    cases proto with
    | udp => exact Or.inl hname
    | tcp => exact Or.inr hname
  · rintro (h | h)
    · exact ⟨.udp, parseProtocol_eq_ok.mpr h⟩
    · exact ⟨.tcp, parseProtocol_eq_ok.mpr h⟩

omit [ToLower] in
theorem Misplaced.rust_host {address host : String}
    (h : Misplaced address.toList host.toList) : Config.extractHost address = .ok host := by
  rw [Config.extractHost_eq_ok]
  rcases h with ⟨rest, haddr, hclose, -⟩ | ⟨hhead, port, haddr, hcolon, -⟩
  · exact Or.inl ⟨rest, haddr, hclose⟩
  · exact Or.inr ⟨hhead, port, haddr, hcolon⟩

/-- **The parsers agree on a string** if and only if it is no endpoint with a misplaced
delimiter. -/
theorem parses_alike_iff (s : String) : ParsesAlike parseIp s ↔ ¬ OddEndpoint parseIp s := by
  constructor
  · rintro ⟨hboth, -⟩ ⟨address, protocol, host, hsplit, hproto, hvalid, hodd⟩
    obtain ⟨proto, hproto⟩ := parseProtocol_isOk.mpr hproto
    have hrust : Config.Endpoint.parse parseIp s = .ok ⟨normalizeListenAddr address, proto⟩ :=
      parse_eq_ok.mpr ⟨address, protocol, proto, host, hsplit, hproto, hodd.rust_host, hvalid, rfl⟩
    obtain ⟨e, hgo⟩ := hboth.mp ⟨_, hrust⟩
    obtain ⟨address', protocol', -, host', hsplit', -, hhost', -, -⟩ := parseEndpoint_eq_ok.mp hgo
    have haddr : address = address' := (List.cons.inj (hsplit.symm.trans hsplit')).1
    obtain ⟨hrust', hfine⟩ := extractHost_iff.mp hhost'
    rw [← haddr] at hrust' hfine
    have hsame : host = host' := Except.ok.inj (hodd.rust_host.symm.trans hrust')
    rw [← hsame] at hfine
    exact hfine hodd
  · intro hplain
    have hgo : ∀ address protocol proto host, split '/' s = [address, protocol] →
        parseProtocol protocol = .ok proto → Config.extractHost address = .ok host →
        (host = "" ∨ isValidIp parseIp host = true) → extractHost address = .ok host := by
      intro address protocol proto host hsplit hproto hhost hvalid
      exact extractHost_iff.mpr ⟨hhost, fun hodd => hplain
        ⟨address, protocol, host, hsplit, parseProtocol_isOk.mp ⟨proto, hproto⟩, hvalid, hodd⟩⟩
    refine ⟨⟨?_, ?_⟩, ?_⟩
    · rintro ⟨e, h⟩
      obtain ⟨address, protocol, proto, host, hsplit, hproto, hhost, hvalid, -⟩ := parse_eq_ok.mp h
      exact ⟨_, parseEndpoint_eq_ok.mpr ⟨address, protocol, proto, host, hsplit, hproto,
        hgo address protocol proto host hsplit hproto hhost hvalid, hvalid, rfl⟩⟩
    · rintro ⟨e, h⟩
      obtain ⟨address, protocol, proto, host, hsplit, hproto, hhost, hvalid, -⟩ :=
        parseEndpoint_eq_ok.mp h
      exact ⟨_, parse_eq_ok.mpr ⟨address, protocol, proto, host, hsplit, hproto,
        (extractHost_iff.mp hhost).1, hvalid, rfl⟩⟩
    · intro e e' h h'
      obtain ⟨address, protocol, proto, host, hsplit, hproto, hhost, hvalid, rfl⟩ :=
        parse_eq_ok.mp h
      obtain ⟨address', protocol', proto', host', hsplit', hproto', hhost', -, rfl⟩ :=
        parseEndpoint_eq_ok.mp h'
      have hpart : addressPart s = address := by
        rw [addressPart, hsplit]
        rfl
      obtain ⟨-, hprotocol⟩ := List.cons.inj (hsplit.symm.trans hsplit')
      rw [← (List.cons.inj hprotocol).1, hproto] at hproto'
      refine ⟨by rw [Except.ok.inj hproto'], host, by rw [hpart]; exact hhost, ?_⟩
      rw [hpart]
      exact hgo address protocol proto host hsplit hproto hhost hvalid

end

/-- An address without a port, for the Rust parser only. -/
theorem rust_accepts_missing_port :
    Config.Endpoint.parse (fun host => IpAddr.fromStr host.toList) "[1.2.3.4]/udp" =
        .ok ⟨"[1.2.3.4]", .udp⟩ ∧
      parseEndpoint (fun host => IpAddr.fromStr host.toList) "[1.2.3.4]/udp" =
        .error (.invalidAddressFormat "[1.2.3.4]" ⟨"missing port in address", "[1.2.3.4]"⟩) ∧
      ¬ ParsesAlike (fun host => IpAddr.fromStr host.toList) "[1.2.3.4]/udp" := by
  have hrust : Config.Endpoint.parse (fun host => IpAddr.fromStr host.toList) "[1.2.3.4]/udp" =
      .ok ⟨"[1.2.3.4]", .udp⟩ := rfl
  have hgo : parseEndpoint (fun host => IpAddr.fromStr host.toList) "[1.2.3.4]/udp" =
      .error (.invalidAddressFormat "[1.2.3.4]" ⟨"missing port in address", "[1.2.3.4]"⟩) := rfl
  refine ⟨hrust, hgo, ?_⟩
  rintro ⟨hboth, -⟩
  obtain ⟨e, he⟩ := hboth.mp ⟨_, hrust⟩
  rw [hgo] at he
  exact absurd he (by rintro ⟨⟩)

end Fproxy.GoConfig
