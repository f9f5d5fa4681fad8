import Fproxy.Config.Endpoint

/-!
# Endpoint strings of the Go program

`config.go` parses endpoints with `net.SplitHostPort`, which looks at every delimiter of the
address: an unbracketed host has no colon, a bracketed one is followed by the last colon, and no
bracket stands anywhere else.

* **`splitHostPort_eq_ok`** — the addresses that are split, and where.
* **`parseEndpoint_eq_ok`** — the strings that are endpoints.
-/

namespace Fproxy.GoConfig

open Fproxy.Config Fproxy.Fallible Fproxy.Text

/-- `net.AddrError`. -/
structure AddrError where
  err : String
  addr : String
  deriving DecidableEq, Repr

/-- The end of `SplitHostPort`: the port starts behind the colon at `i`, and no bracket stands at
or behind `j` (`k`). -/
def splitAt (hostport : String) (i j k : ℕ) (host : List Char) :
    Except AddrError (String × String) :=
  if '[' ∈ hostport.toList.drop j then .error ⟨"unexpected '[' in address", hostport⟩
  else if ']' ∈ hostport.toList.drop k then .error ⟨"unexpected ']' in address", hostport⟩
  else .ok (String.ofList host, String.ofList (hostport.toList.drop (i + 1)))

/-- `net.SplitHostPort`. -/
def splitHostPort (hostport : String) : Except AddrError (String × String) :=
  match Scan.rfind ':' hostport.toList with
  | none => .error ⟨"missing port in address", hostport⟩
  | some i =>
      if hostport.toList.head? = some '[' then
        match hostport.toList.idxOf? ']' with
        | none => .error ⟨"missing ']' in address", hostport⟩
        | some e =>
            if e + 1 = hostport.toList.length then .error ⟨"missing port in address", hostport⟩
            else if e + 1 = i then
              splitAt hostport i 1 (e + 1) ((hostport.toList.take e).drop 1)
            else if hostport.toList[e + 1]? = some ':' then
              .error ⟨"too many colons in address", hostport⟩
            else .error ⟨"missing port in address", hostport⟩
      else if ':' ∈ hostport.toList.take i then .error ⟨"too many colons in address", hostport⟩
      else splitAt hostport i 0 0 (hostport.toList.take i)

/-- The errors of `ParseEndpoint` and `parseHostIP`. -/
inductive EndpointError where
  | invalidFormat (s : String)
  | invalidProtocol (proto : String)
  | invalidAddressFormat (address : String) (err : AddrError)
  | invalidIpAddress (address : String)
  | invalidHost (host : String)
  deriving DecidableEq, Repr

/-- `Endpoint`. -/
structure Endpoint where
  address : String
  protocol : String
  deriving DecidableEq, Repr

/-- `extractHost`. -/
def extractHost (address : String) : Except EndpointError String :=
  match splitHostPort address with
  | .error err => .error (.invalidAddressFormat address err)
  | .ok (host, _) => .ok host

section

variable {Ip : Type} [ToLower] (parseIp : String → Option Ip)

/-- `ParseEndpoint`. -/
def parseEndpoint (s : String) : Except EndpointError Endpoint :=
  match split '/' s with
  | [address, protocol] =>
      let proto := toLowercase protocol
      if proto ≠ "udp" ∧ proto ≠ "tcp" then .error (.invalidProtocol (ToLower.toLower protocol))
      else do
        let host ← extractHost address
        if host ≠ "" ∧ isValidIp parseIp host = false then .error (.invalidIpAddress address)
        else .ok ⟨address, proto⟩
  | _ => .error (.invalidFormat s)

/-- `ParseEndpoints`. -/
def parseEndpoints (s : String) : Except EndpointError (List Endpoint) :=
  if s = "" then .ok [] else (items s).mapM (parseEndpoint parseIp)

/-- `parseHostIP`. -/
def parseHostIp (address : String) : Except EndpointError (Option Ip) :=
  match extractHost address with
  | .error e => .error e
  | .ok host =>
      if host = "" then .ok none
      else
        match parseIp host with
        | some ip => .ok (some ip)
        | none => .error (.invalidHost host)

end

/-! ### Where an address is split -/

/-- No delimiter of an address. -/
def NoDelimiter (s : List Char) : Prop := ':' ∉ s ∧ '[' ∉ s ∧ ']' ∉ s

/-- `[host]:port`. -/
def BracketAddress (address host port : List Char) : Prop :=
  address = '[' :: (host ++ ']' :: ':' :: port) ∧ '[' ∉ host ∧ ']' ∉ host ∧ NoDelimiter port

/-- `host:port`. -/
def ColonAddress (address host port : List Char) : Prop :=
  address = host ++ ':' :: port ∧ NoDelimiter host ∧ NoDelimiter port

theorem splitAt_eq_ok {hostport h p : String} {i j k : ℕ} {host : List Char} :
    splitAt hostport i j k host = .ok (h, p) ↔
      '[' ∉ hostport.toList.drop j ∧ ']' ∉ hostport.toList.drop k ∧ h.toList = host ∧
        p.toList = hostport.toList.drop (i + 1) := by
  unfold splitAt
  by_cases hopen : '[' ∈ hostport.toList.drop j
  · simp [hopen]
  · by_cases hclose : ']' ∈ hostport.toList.drop k
    · simp [hopen, hclose]
    · rw [if_neg hopen, if_neg hclose, Except.ok.injEq, Prod.mk.injEq, ← String.toList_inj,
        ← String.toList_inj, String.toList_ofList, String.toList_ofList]
      exact ⟨fun h => ⟨hopen, hclose, h.1.symm, h.2.symm⟩, fun h => ⟨h.2.2.1.symm, h.2.2.2.symm⟩⟩

/-- A bracketed address is split right behind the first `]`. -/
theorem bracketAddress_of_split {address host port : String} {cs : List Char}
    (hcs : address.toList = '[' :: cs) (h : splitHostPort address = .ok (host, port)) :
    BracketAddress address.toList host.toList port.toList := by
  unfold splitHostPort at h
  split at h
  · exact absurd h (by rintro ⟨⟩)
  · next i hi =>
      rw [if_pos (by rw [hcs, List.head?_cons])] at h
      split at h
      · exact absurd h (by rintro ⟨⟩)
      · next e he =>
          obtain ⟨pre, post, haddr, hpost, hpre⟩ := Scan.rfind_eq_some.mp hi
          obtain ⟨pre', post', haddr', hclose, hpre'⟩ := Scan.idxOf_eq_some.mp he
          split_ifs at h with hend hei hcolon
          obtain ⟨hopen, hclose', hhost, hport⟩ := splitAt_eq_ok.mp h
          cases pre' with
          | nil =>
              rw [hcs] at haddr'
              exact absurd (List.cons.inj haddr').1 (by decide)
          | cons c inner =>
              obtain ⟨rfl, hinner⟩ := List.cons.inj (hcs.symm.trans haddr')
              have hsplit : ('[' :: inner ++ [']']) ++ post' = pre ++ ':' :: post := by
                rw [List.append_assoc, List.singleton_append, ← haddr', haddr]
              have hlen : ('[' :: inner ++ [']']).length = pre.length := by
                rw [List.length_append, hpre', List.length_singleton, hei, hpre]
              obtain ⟨hpre₀, hpost'⟩ := List.append_inj hsplit hlen
              subst hpost'
              have hhost' : host.toList = inner := by
                rw [hhost, haddr', ← hpre', List.take_left, List.drop_one, List.tail_cons]
              have hport' : port.toList = post := by
                rw [hport, haddr, ← hpre, ← List.drop_drop, List.drop_left, List.drop_one,
                  List.tail_cons]
              have hdrop : address.toList.drop 1 = inner ++ ']' :: ':' :: post := by
                rw [haddr']
                rfl
              have hdrop' : address.toList.drop (e + 1) = ':' :: post := by
                rw [haddr', ← hpre', ← List.drop_drop, List.drop_left, List.drop_one,
                  List.tail_cons]
              rw [hdrop] at hopen
              rw [hdrop'] at hclose'
              refine ⟨?_, ?_, ?_, ?_⟩
              · rw [hhost', hport', haddr', List.cons_append]
              · rw [hhost']
                exact fun hm => hopen (List.mem_append_left _ hm)
              · rw [hhost']
                exact fun hm => hclose (List.mem_cons_of_mem _ hm)
              · rw [hport']
                exact ⟨hpost, fun hm => hopen (by simp [hm]), fun hm => hclose' (by simp [hm])⟩

/-- Another address is split at its only colon. -/
theorem colonAddress_of_split {address host port : String}
    (hhead : address.toList.head? ≠ some '[') (h : splitHostPort address = .ok (host, port)) :
    ColonAddress address.toList host.toList port.toList := by
  unfold splitHostPort at h
  split at h
  · exact absurd h (by rintro ⟨⟩)
  · next i hi =>
      obtain ⟨pre, post, haddr, hpost, hpre⟩ := Scan.rfind_eq_some.mp hi
      have htake : address.toList.take i = pre := by rw [haddr, ← hpre, List.take_left]
      rw [if_neg hhead, htake] at h
      split at h
      · exact absurd h (by rintro ⟨⟩)
      · next hcolon =>
          obtain ⟨hopen, hclose, hhost, hport⟩ := splitAt_eq_ok.mp h
          rw [List.drop_zero, haddr] at hopen hclose
          have hport' : port.toList = post := by
            rw [hport, haddr, ← hpre, ← List.drop_drop, List.drop_left, List.drop_one,
              List.tail_cons]
          rw [hhost, hport']
          exact ⟨haddr,
            ⟨hcolon, fun hm => hopen (by simp [hm]), fun hm => hclose (by simp [hm])⟩,
            ⟨hpost, fun hm => hopen (by simp [hm]), fun hm => hclose (by simp [hm])⟩⟩

theorem split_of_bracketAddress {address host port : String}
    (h : BracketAddress address.toList host.toList port.toList) :
    splitHostPort address = .ok (host, port) := by
  obtain ⟨haddr, hopen, hclose, hcolon, hopen', hclose'⟩ := h
  have hi : Scan.rfind ':' address.toList = some (host.toList.length + 2) :=
    Scan.rfind_eq_some.mpr ⟨'[' :: (host.toList ++ [']']), port.toList, by rw [haddr]; simp, hcolon,
      by simp⟩
  have he : address.toList.idxOf? ']' = some (host.toList.length + 1) :=
    Scan.idxOf_eq_some.mpr ⟨'[' :: host.toList, ':' :: port.toList, haddr, by simp [hclose], rfl⟩
  have hlen : ¬ host.toList.length + 1 + 1 = address.toList.length := by
    rw [haddr]
    simp
  unfold splitHostPort
  rw [hi]
  simp only [he, if_neg hlen]
  rw [if_pos (by rw [haddr, List.head?_cons]), if_pos trivial, splitAt_eq_ok, haddr]
  refine ⟨by simp [hopen, hopen'], ?_, by simp, by simp⟩
  simp [hclose']

theorem split_of_colonAddress {address host port : String}
    (h : ColonAddress address.toList host.toList port.toList) :
    splitHostPort address = .ok (host, port) := by
  obtain ⟨haddr, ⟨hhost, hopen, hclose⟩, hport, hopen', hclose'⟩ := h
  have hi : Scan.rfind ':' address.toList = some host.toList.length :=
    Scan.rfind_eq_some.mpr ⟨host.toList, port.toList, haddr, hport, rfl⟩
  have hhead : ¬ address.toList.head? = some '[' := by
    rw [haddr]
    intro hc
    have hm : '[' ∈ host.toList ++ ':' :: port.toList := List.mem_of_head? hc
    simp [hopen, hopen'] at hm
  have htake : address.toList.take host.toList.length = host.toList := by
    rw [haddr, List.take_left]
  unfold splitHostPort
  rw [hi]
  simp only [if_neg hhead, htake, if_neg hhost]
  rw [splitAt_eq_ok, haddr]
  refine ⟨by simp [hopen, hopen'], by simp [hclose, hclose'], rfl, by simp⟩

/-- **The addresses that are split.** -/
theorem splitHostPort_eq_ok {address host port : String} :
    splitHostPort address = .ok (host, port) ↔
      BracketAddress address.toList host.toList port.toList ∨
        ColonAddress address.toList host.toList port.toList := by
  constructor
  · intro h
    by_cases hhead : address.toList.head? = some '['
    · obtain ⟨cs, hcs⟩ := List.head?_eq_some_iff.mp hhead
      exact Or.inl (bracketAddress_of_split hcs h)
    · exact Or.inr (colonAddress_of_split hhead h)
  · rintro (h | h)
    · exact split_of_bracketAddress h
    · exact split_of_colonAddress h

/-- The spelling of a protocol. -/
def protocolName : Protocol → String
  | .udp => "udp"
  | .tcp => "tcp"

/-- Both programs read the same protocols. -/
theorem parseProtocol_eq_ok {s : String} {proto : Protocol} :
    parseProtocol s = .ok proto ↔ toLowercase s = protocolName proto := by
  unfold parseProtocol
  by_cases hudp : toLowercase s = "udp"
  · rw [if_pos hudp, hudp]
    cases proto <;> simp [protocolName]
  · by_cases htcp : toLowercase s = "tcp"
    · rw [if_neg hudp, if_pos htcp, htcp]
      cases proto <;> simp [protocolName]
    · rw [if_neg hudp, if_neg htcp]
      cases proto <;> simp [protocolName, hudp, htcp]

theorem extractHost_eq_ok {address host : String} :
    extractHost address = .ok host ↔ ∃ port, splitHostPort address = .ok (host, port) := by
  unfold extractHost
  cases splitHostPort address with
  | error err => simp
  | ok r => simp [Prod.ext_iff]

variable {Ip : Type} [ToLower] {parseIp : String → Option Ip}

/-- **The strings that are endpoints.** -/
theorem parseEndpoint_eq_ok {s : String} {e : Endpoint} :
    parseEndpoint parseIp s = .ok e ↔
      ∃ address protocol proto host, split '/' s = [address, protocol] ∧
        parseProtocol protocol = .ok proto ∧ extractHost address = .ok host ∧
        (host = "" ∨ isValidIp parseIp host = true) ∧ e = ⟨address, protocolName proto⟩ := by
  unfold parseEndpoint
  constructor
  · intro h
    split at h
    · next address protocol hsplit =>
        dsimp only at h
        split at h
        · exact absurd h (by rintro ⟨⟩)
        · next hproto =>
            obtain ⟨proto, hname⟩ : ∃ proto, toLowercase protocol = protocolName proto := by
              by_cases hudp : toLowercase protocol = "udp"
              · exact ⟨.udp, hudp⟩
              · exact ⟨.tcp, not_not.mp fun htcp => hproto ⟨hudp, htcp⟩⟩
            obtain ⟨host, hhost, h⟩ := bind_eq_ok.mp h
            split at h
            · exact absurd h (by rintro ⟨⟩)
            · next hvalid =>
                rw [hname] at h
                exact ⟨address, protocol, proto, host, hsplit, parseProtocol_eq_ok.mpr hname, hhost,
                  host_accepted_iff.mp hvalid, (Except.ok.inj h).symm⟩
    · exact absurd h (by rintro ⟨⟩)
  · rintro ⟨address, protocol, proto, host, hsplit, hproto, hhost, hvalid, rfl⟩
    have hname := parseProtocol_eq_ok.mp hproto
    have hknown : ¬ (protocolName proto ≠ "udp" ∧ protocolName proto ≠ "tcp") := by
      cases proto <;> simp [protocolName]
    rw [hsplit]
    simp only [hname, if_neg hknown]
    exact bind_eq_ok.mpr ⟨host, hhost, if_neg (host_accepted_iff.mpr hvalid)⟩

end Fproxy.GoConfig
