import Fproxy.Config
import Fproxy.Library.Fallible
import Fproxy.Library.Text

/-!
# Endpoint strings

`Endpoint::parse` and the functions of `config.rs` around it.  The parser of IP addresses is a
parameter, since only some results depend on what it accepts.

* **`extractHost_eq_ok`** — what a host is: the text up to the first `]` in brackets, up to the
  last colon otherwise.
* **`parse_eq_ok`** — the strings that are endpoints.
* **`parseList_eq_ok`** — a list of endpoints is parsed item by item.
-/

namespace Fproxy.Config

open Fproxy.Fallible Fproxy.Text

/-- `ConfigError`. -/
inductive ConfigError where
  | modeRequired
  | invalidMode
  | clientListenRequired
  | clientServersRequired
  | serverListenRequired
  | serverTargetRequired
  | invalidEndpointFormat (s : String)
  | invalidProtocol (s : String)
  | invalidAddressFormat (address reason : String)
  | invalidIpAddress
  | clientServersDifferentIps
  | fileReadError (e : String)
  | fileParseError (e : String)
  deriving DecidableEq, Repr

/-- `extract_host`. -/
def extractHost (address : String) : Except ConfigError String :=
  if address.toList.head? = some '[' then
    match address.toList.idxOf? ']' with
    | some bracketEnd => .ok (String.ofList ((address.toList.take bracketEnd).drop 1))
    | none => .error (.invalidAddressFormat address "unclosed bracket")
  else
    match Scan.rfind ':' address.toList with
    | some colonPos => .ok (String.ofList (address.toList.take colonPos))
    | none => .error (.invalidAddressFormat address "missing port")

/-- `normalize_listen_addr`. -/
def normalizeListenAddr (addr : String) : String :=
  if addr.toList.head? = some ':' then "0.0.0.0" ++ addr
  else if "[:]:".toList <+: addr.toList then "[::]" ++ String.ofList (addr.toList.drop 3)
  else addr

/-- The protocol of an endpoint string, in any case. -/
def parseProtocol (s : String) : Except ConfigError Protocol :=
  if toLowercase s = "udp" then .ok .udp
  else if toLowercase s = "tcp" then .ok .tcp
  else .error (.invalidProtocol s)

section

variable {Ip : Type} (parseIp : String → Option Ip)

/-- `is_valid_ip`. -/
def isValidIp (host : String) : Bool := (parseIp host).isSome

/-- `Endpoint::parse`. -/
def Endpoint.parse (s : String) : Except ConfigError Endpoint :=
  match split '/' s with
  | [address, protocol] => do
      let protocol ← parseProtocol protocol
      let host ← extractHost address
      if host ≠ "" ∧ isValidIp parseIp host = false then .error .invalidIpAddress
      else .ok ⟨normalizeListenAddr address, protocol⟩
  | _ => .error (.invalidEndpointFormat s)

/-- The non-empty items of a comma-separated list. -/
def items (s : String) : List String := ((split ',' s).map trim).filter (· ≠ "")

/-- `Endpoint::parse_list`. -/
def Endpoint.parseList (s : String) : Except ConfigError (List Endpoint) :=
  if s = "" then .ok [] else (items s).mapM (Endpoint.parse parseIp)

/-- `parse_host_ip`. -/
def parseHostIp (address : String) : Except ConfigError (Option Ip) :=
  match extractHost address with
  | .error e => .error e
  | .ok host =>
      if host = "" then .ok none
      else
        match parseIp host with
        | some ip => .ok (some ip)
        | none => .error .invalidIpAddress

end

/-- The address of an endpoint string. -/
def addressPart (item : String) : String := ((split '/' item).head?).getD ""

/-! ### What is accepted -/

/-- `host` is written in brackets at the start of `address`. -/
def BracketHost (address host : List Char) : Prop :=
  ∃ rest, address = '[' :: (host ++ ']' :: rest) ∧ ']' ∉ host

/-- `host` is what stands before the last colon of `address`, which has no bracket in front. -/
def ColonHost (address host : List Char) : Prop :=
  address.head? ≠ some '[' ∧ ∃ port, address = host ++ ':' :: port ∧ ':' ∉ port

theorem bracketHost_iff {cs host : List Char} :
    BracketHost ('[' :: cs) host ↔
      ∃ i, ('[' :: cs).idxOf? ']' = some i ∧ (('[' :: cs).take i).drop 1 = host := by
  constructor
  · rintro ⟨rest, haddr, hhost⟩
    refine ⟨host.length + 1, Scan.idxOf_eq_some.mpr ⟨'[' :: host, rest, haddr, ?_, rfl⟩, ?_⟩
    · simp [hhost]
    · rw [haddr, List.take_succ_cons, List.drop_one, List.tail_cons, List.take_left]
  · rintro ⟨i, hi, rfl⟩
    obtain ⟨pre, post, haddr, hpre, rfl⟩ := Scan.idxOf_eq_some.mp hi
    cases pre with
    | nil => exact absurd (List.cons.inj haddr).1 (by decide)
    | cons c pre =>
        obtain ⟨rfl, hcs⟩ := List.cons.inj haddr
        have htake : (('[' :: cs).take ('[' :: pre).length).drop 1 = pre := by
          rw [haddr, List.take_left, List.drop_one, List.tail_cons]
        rw [htake]
        exact ⟨post, haddr, fun h => hpre (List.mem_cons_of_mem _ h)⟩

theorem colonHost_iff {address host : List Char} (hhead : address.head? ≠ some '[') :
    ColonHost address host ↔
      ∃ i, Scan.rfind ':' address = some i ∧ address.take i = host := by
  constructor
  · rintro ⟨-, port, rfl, hport⟩
    exact ⟨host.length, Scan.rfind_eq_some.mpr ⟨host, port, rfl, hport, rfl⟩, List.take_left⟩
  · rintro ⟨i, hi, rfl⟩
    obtain ⟨pre, post, haddr, hpost, rfl⟩ := Scan.rfind_eq_some.mp hi
    refine ⟨hhead, post, ?_, hpost⟩
    rw [haddr, List.take_left]

/-- **What a host is.** -/
theorem extractHost_eq_ok {address host : String} :
    extractHost address = .ok host ↔
      BracketHost address.toList host.toList ∨ ColonHost address.toList host.toList := by
  unfold extractHost
  by_cases hhead : address.toList.head? = some '['
  · rw [if_pos hhead]
    have hcolon : ¬ ColonHost address.toList host.toList := fun h => h.1 hhead
    obtain ⟨cs, hcs⟩ : ∃ cs, address.toList = '[' :: cs := by
      cases h : address.toList with
      | nil => simp [h] at hhead
      | cons c cs => exact ⟨cs, by simpa [h] using hhead⟩
    rw [or_iff_left hcolon, hcs, bracketHost_iff]
    cases ('[' :: cs).idxOf? ']' with
    | none => simp
    | some i => simp [String.ext_iff]
  · rw [if_neg hhead]
    have hbracket : ¬ BracketHost address.toList host.toList := by
      rintro ⟨rest, h, -⟩
      exact hhead (by rw [h, List.head?_cons])
    rw [or_iff_right hbracket, colonHost_iff hhead]
    cases Scan.rfind ':' address.toList with
    | none => simp
    | some i => simp [String.ext_iff]

variable {Ip : Type} {parseIp : String → Option Ip}

/-- The check of a host, read positively. -/
theorem host_accepted_iff {host : String} :
    ¬ (host ≠ "" ∧ isValidIp parseIp host = false) ↔
      host = "" ∨ isValidIp parseIp host = true := by
  rw [not_and_or, not_not, Bool.not_eq_false]

/-- **The strings that are endpoints.** -/
theorem parse_eq_ok {s : String} {e : Endpoint} :
    Endpoint.parse parseIp s = .ok e ↔
      ∃ address protocol proto host, split '/' s = [address, protocol] ∧
        parseProtocol protocol = .ok proto ∧ extractHost address = .ok host ∧
        (host = "" ∨ isValidIp parseIp host = true) ∧ e = ⟨normalizeListenAddr address, proto⟩ := by
  unfold Endpoint.parse
  constructor
  · intro h
    split at h
    · next address protocol hsplit =>
        obtain ⟨proto, hproto, h⟩ := bind_eq_ok.mp h
        obtain ⟨host, hhost, h⟩ := bind_eq_ok.mp h
        split at h
        · exact absurd h (by rintro ⟨⟩)
        · next hvalid =>
            exact ⟨address, protocol, proto, host, hsplit, hproto, hhost,
              host_accepted_iff.mp hvalid, (Except.ok.inj h).symm⟩
    · exact absurd h (by rintro ⟨⟩)
  · rintro ⟨address, protocol, proto, host, hsplit, hproto, hhost, hvalid, rfl⟩
    rw [hsplit]
    exact bind_eq_ok.mpr ⟨proto, hproto, bind_eq_ok.mpr
      ⟨host, hhost, if_neg (host_accepted_iff.mpr hvalid)⟩⟩

theorem items_empty : items "" = [] := by decide

/-- **A list of endpoints is parsed item by item.** -/
theorem parseList_eq_ok {s : String} {es : List Endpoint} :
    Endpoint.parseList parseIp s = .ok es ↔
      List.Forall₂ (fun item e => Endpoint.parse parseIp item = .ok e) (items s) es := by
  unfold Endpoint.parseList
  by_cases hs : s = ""
  · rw [if_pos hs, hs, items_empty, List.forall₂_nil_left_iff]
    constructor
    · intro h
      exact (Except.ok.inj h).symm
    · rintro rfl
      rfl
  · rw [if_neg hs, mapM_eq_ok]

end Fproxy.Config
