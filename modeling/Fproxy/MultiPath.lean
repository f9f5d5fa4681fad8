import Fproxy.Client.Machine

/-!
# One datagram, every path

What a client is for: it sends every datagram of a source on every path to the server, and every
copy carries the same session id and sequence number, so that the server can tell copies from
datagrams.  A path is a UDP sender, or the connection of the source to a TCP server.

* `Leg` — what happened to a datagram on one path, and `Leg.Sound` — that this was right.
* `Passage` — a datagram on its way out, with its legs in order.
* `Spreads` — a log that consists of passages, with the one that is under way; the rules
  `Spreads.start`, `Spreads.named`, `Spreads.leg` and `Spreads.finish` are what a client does.
* **`Spreads.every_path`** — what a log of this kind says.
* `Follows` — the log goes with where the listener of a client stands.
-/

namespace Fproxy.MultiPath

open Fproxy.Client Fproxy.Config Fproxy.Protocol Fproxy.TcpFraming

/-- A way to the server. -/
inductive Path where
  | udp (i : SenderId)
  | tcp (key : SessionKey)
  deriving DecidableEq

/-- Why a datagram was not sent on a path: there was no connection and none could be opened, the
packet does not fit a frame, the session of the connection is marked as closed, or the send
failed. -/
inductive Failure where
  | unreachable
  | tooLarge
  | closed
  | sendFailed
  deriving DecidableEq

/-- The bytes of a packet on a path. -/
def Path.bytes : Path → List UInt8 → List UInt8
  | .udp _, packet => packet
  | .tcp _, packet => tcpFrame packet

/-- What happened to a datagram on one path: the bytes that went out, and on which path. -/
structure Leg where
  path : Path
  sent : List (Path × List UInt8)
  failure : Option Failure
  deriving DecidableEq

/-- What a client does, as far as datagrams are concerned. -/
inductive Log where
  | received (source : SocketAddr) (payload : List UInt8)
  | leg (l : Leg)
  /-- Bytes that went out otherwise. -/
  | stray (path : Path) (bytes : List UInt8)
  deriving DecidableEq

/-- The packet went out on the path of the leg and nowhere else, unless there was a failure; only
a TCP server is unreachable, the packet is too large only where it does not fit a frame, and no
session is marked as closed. -/
structure Leg.Sound (l : Leg) (packet : List UInt8) : Prop where
  sent : l.failure = none → l.sent = [(l.path, l.path.bytes packet)]
  withheld : l.failure ≠ none → l.sent = []
  unreachable : l.failure = some .unreachable → ∃ key, l.path = .tcp key
  tooLarge : l.failure = some .tooLarge →
    (∃ key, l.path = .tcp key) ∧ maxTcpFrameSize < packet.length
  notClosed : l.failure ≠ some .closed
  framed : ∀ key, l.path = .tcp key → l.failure = none → packet.length ≤ maxTcpFrameSize

/-- What the outcome of a send means for a leg. -/
def sendFailure (sendOk : Bool) : Option Failure := if sendOk then none else some .sendFailed

/-- A send, which may fail. -/
theorem Leg.Sound.of_send {path : Path} {packet : List UInt8} {sent : List (Path × List UInt8)}
    {sendOk : Bool} (hsent : sent = if sendOk then [(path, path.bytes packet)] else [])
    (hfits : ∀ key, path = .tcp key → packet.length ≤ maxTcpFrameSize) :
    Leg.Sound ⟨path, sent, sendFailure sendOk⟩ packet := by
  cases sendOk with
  | true =>
      exact ⟨fun _ => hsent, fun h => absurd rfl h, fun h => absurd h (by simp [sendFailure]),
        fun h => absurd h (by simp [sendFailure]), by simp [sendFailure],
        fun key hkey _ => hfits key hkey⟩
  | false =>
      exact ⟨fun h => absurd h (by simp [sendFailure]), fun _ => hsent,
        fun h => absurd h (by simp [sendFailure]), fun h => absurd h (by simp [sendFailure]),
        by simp [sendFailure], fun _ _ h => absurd h (by simp [sendFailure])⟩

/-- No send at all, on a TCP path. -/
theorem Leg.Sound.of_failure {key : SessionKey} {packet : List UInt8} {failure : Failure}
    (hlarge : failure = .tooLarge → maxTcpFrameSize < packet.length) (hopen : failure ≠ .closed) :
    Leg.Sound ⟨.tcp key, [], some failure⟩ packet :=
  ⟨fun h => absurd h (by simp), fun _ => rfl, fun _ => ⟨key, rfl⟩,
    fun h => ⟨⟨key, rfl⟩, hlarge (Option.some.inj h)⟩, fun h => hopen (Option.some.inj h),
    fun _ _ h => absurd h (by simp)⟩

/-- A datagram on its way out: its source, what it carries, the session id and sequence number of
all its copies, and its legs. -/
structure Passage where
  source : SocketAddr
  payload : List UInt8
  sessionId : UInt64
  seq : UInt32
  legs : List Leg

/-- What a passage leaves in the log. -/
def Passage.log (p : Passage) : List Log := .received p.source p.payload :: p.legs.map .leg

/-- Every leg is sound for the one packet. -/
def Passage.Sound (p : Passage) : Prop :=
  ∀ l ∈ p.legs, l.Sound (encodePacket p.sessionId p.seq p.payload)

/-- The paths of a datagram, in the order in which the client takes them. -/
def pathsOf (servers : List Endpoint) (source : SocketAddr) : List Path :=
  (List.range (addressesOf .udp servers).length).map .udp ++
    (addressesOf .tcp servers).map fun server => .tcp (source, server)

/-- The log consists of passages; all but the one under way have taken every path, and that one
has the given paths left. -/
def Spreads (servers : List Endpoint) (log : List Log) (current : Option (Passage × List Path)) :
    Prop :=
  ∃ done : List Passage, log = (done ++ (current.map Prod.fst).toList).flatMap Passage.log ∧
    (∀ p ∈ done, p.Sound ∧ p.legs.map Leg.path = pathsOf servers p.source) ∧
    ∀ q ∈ current, q.1.Sound ∧ q.1.legs.map Leg.path ++ q.2 = pathsOf servers q.1.source

namespace Spreads

variable {servers : List Endpoint} {log : List Log} {p : Passage} {left : List Path}

/-- Nothing has happened yet. -/
theorem nil : Spreads servers [] none :=
  ⟨[], rfl, fun _ h => absurd h List.not_mem_nil, fun _ h => absurd h (by simp)⟩

/-- A datagram is received. -/
theorem start (h : Spreads servers log none) (source : SocketAddr) (payload : List UInt8) :
    Spreads servers (log ++ [.received source payload])
      (some (⟨source, payload, 0, 0, []⟩, pathsOf servers source)) := by
  obtain ⟨done, rfl, hdone, -⟩ := h
  refine ⟨done, ?_, hdone, fun q hq => ?_⟩
  · simp [Passage.log]
  · obtain rfl := Option.some.inj hq
    exact ⟨fun _ hl => absurd hl List.not_mem_nil, rfl⟩

/-- A datagram gets its session id and sequence number before it takes the first path. -/
theorem named (h : Spreads servers log (some (p, left))) (hlegs : p.legs = [])
    (sessionId : UInt64) (seq : UInt32) :
    Spreads servers log (some ({ p with sessionId, seq }, left)) := by
  obtain ⟨done, rfl, hdone, hcur⟩ := h
  refine ⟨done, by simp [Passage.log], hdone, fun q hq => ?_⟩
  obtain rfl := Option.some.inj hq
  refine ⟨fun l hl => ?_, (hcur _ rfl).2⟩
  have hl : l ∈ p.legs := hl
  rw [hlegs] at hl
  exact absurd hl List.not_mem_nil

/-- A datagram takes the next path. -/
theorem leg {l : Leg} (h : Spreads servers log (some (p, l.path :: left)))
    (hl : l.Sound (encodePacket p.sessionId p.seq p.payload)) :
    Spreads servers (log ++ [.leg l]) (some ({ p with legs := p.legs ++ [l] }, left)) := by
  obtain ⟨done, rfl, hdone, hcur⟩ := h
  obtain ⟨hsound, hpaths⟩ := hcur _ rfl
  refine ⟨done, ?_, hdone, fun q hq => ?_⟩
  · simp [Passage.log]
  · obtain rfl := Option.some.inj hq
    refine ⟨fun l' hl' => ?_, ?_⟩
    · rcases List.mem_append.mp hl' with hl' | hl'
      · exact hsound l' hl'
      · rw [List.mem_singleton.mp hl']
        exact hl
    · rw [List.map_append, List.append_assoc]
      exact hpaths

/-- A datagram has taken every path. -/
theorem finish (h : Spreads servers log (some (p, []))) : Spreads servers log none := by
  obtain ⟨done, rfl, hdone, hcur⟩ := h
  obtain ⟨hsound, hpaths⟩ := hcur _ rfl
  refine ⟨done ++ [p], by simp, fun q hq => ?_, fun _ hq => absurd hq (by simp)⟩
  rcases List.mem_append.mp hq with hq | hq
  · exact hdone q hq
  · rw [List.mem_singleton.mp hq]
    rw [List.append_nil] at hpaths
    exact ⟨hsound, hpaths⟩

/-- **Every datagram takes every path**, in order and with one packet, and nothing else goes out:
the log is made of passages, all complete except for the one under way. -/
theorem every_path {current : Option (Passage × List Path)} (h : Spreads servers log current) :
    ∃ (done : List Passage) (last : Option Passage),
      log = (done ++ last.toList).flatMap Passage.log ∧
        (∀ p ∈ done ++ last.toList, p.Sound) ∧
        (∀ p ∈ done, p.legs.map Leg.path = pathsOf servers p.source) ∧
        (∀ p ∈ last, p.legs.map Leg.path <+: pathsOf servers p.source) ∧
        (current = none → last = none) := by
  obtain ⟨done, hlog, hdone, hcur⟩ := h
  refine ⟨done, current.map Prod.fst, hlog, fun p hp => ?_, fun p hp => (hdone p hp).2,
    fun p hp => ?_, fun hnone => by rw [hnone]; rfl⟩
  · rcases List.mem_append.mp hp with hp | hp
    · exact (hdone p hp).1
    · obtain ⟨q, hq, rfl⟩ := Option.map_eq_some_iff.mp (Option.mem_toList.mp hp)
      exact (hcur q hq).1
  · obtain ⟨q, hq, rfl⟩ := Option.map_eq_some_iff.mp hp
    exact ⟨q.2, (hcur q hq).2⟩

end Spreads

/-! ### Where a client stands -/

/-- The bytes an observation puts on a path; `keyOf` tells what a connection was opened for. -/
def sentOn (keyOf : ConnId → SessionKey) : Obs → Option (Path × List UInt8)
  | .sentUdp i packet => some (.udp i, packet)
  | .sentTcp c frame => some (.tcp (keyOf c), frame)
  | _ => none

/-- The paths that a datagram has left. -/
def left (servers : List Endpoint) (keyOf : ConnId → SessionKey) (source : SocketAddr) :
    SendPc → List Path
  | .lookup | .create | .number _ | .touch _ _ => pathsOf servers source
  | .udp _ _ senders =>
      senders.map .udp ++ (addressesOf .tcp servers).map fun server => .tcp (source, server)
  | .tcp _ _ servers => servers.map fun server => .tcp (source, server)
  | .tcpCreate _ _ server servers => (server :: servers).map fun server => .tcp (source, server)
  | .tcpTouch _ _ c servers | .tcpSend _ _ c servers =>
      .tcp (keyOf c) :: servers.map fun server => .tcp (source, server)

/-- The connection that was found or opened is the one to the server. -/
theorem left_tcpTouch {servers : List Endpoint} (keyOf : ConnId → SessionKey)
    {keyOf' : ConnId → SessionKey} {source : SocketAddr} {server : String} {c : ConnId}
    (h : keyOf' c = (source, server)) (o : SessionObj) (seq : UInt32) (rest : List String) :
    left servers keyOf' source (.tcpTouch o seq c rest) =
      left servers keyOf source (.tcp o seq (server :: rest)) := by
  simp only [left, h, List.map_cons]

/-- The session and the number of a datagram, once it has them. -/
def number : SendPc → Option (SessionObj × UInt32)
  | .lookup | .create | .number _ => none
  | .touch o seq | .udp o seq _ | .tcp o seq _ | .tcpCreate o seq _ _ | .tcpTouch o seq _ _
  | .tcpSend o seq _ _ => some (o, seq)

/-- The passage under way is that of the datagram the listener is sending. -/
structure UnderWay (sessionId : SessionObj → UInt64) (h : Sending) (p : Passage) : Prop where
  source : p.source = h.source
  payload : p.payload = h.payload
  unnumbered : number h.pc = none → p.legs = []
  numbered : ∀ o seq, number h.pc = some (o, seq) → p.sessionId = sessionId o ∧ p.seq = seq

/-- The log goes with where the listener stands. -/
def Follows (servers : List Endpoint) (keyOf : ConnId → SessionKey)
    (sessionId : SessionObj → UInt64) (sending : Option Sending) (log : List Log) : Prop :=
  match sending with
  | none => Spreads servers log none
  | some h => ∃ p, UnderWay sessionId h p ∧
      Spreads servers log (some (p, left servers keyOf h.source h.pc))

namespace Follows

variable {servers : List Endpoint} {keyOf keyOf' : ConnId → SessionKey}
  {sessionId sessionId' : SessionObj → UInt64} {log : List Log}

/-- The listener receives a datagram. -/
theorem receive (h : Follows servers keyOf sessionId none log) (source : SocketAddr)
    (payload : List UInt8) :
    Follows servers keyOf' sessionId' (some ⟨source, payload, .lookup⟩)
      (log ++ [.received source payload]) :=
  ⟨_, ⟨rfl, rfl, fun _ => rfl, fun _ _ h => absurd h (by simp [number])⟩, h.start source payload⟩

variable {g : Sending} {pc : SendPc}

/-- The listener, or another task, moves on without sending. -/
theorem goto (h : Follows servers keyOf sessionId (some g) log)
    (hleft : left servers keyOf' g.source pc = left servers keyOf g.source g.pc)
    (hnum : number pc = number g.pc)
    (hid : ∀ o seq, number g.pc = some (o, seq) → sessionId' o = sessionId o) :
    Follows servers keyOf' sessionId' (some { g with pc := pc }) log := by
  obtain ⟨p, hp, hs⟩ := h
  refine ⟨p, ⟨hp.source, hp.payload, fun hn => hp.unnumbered (hnum ▸ hn), fun o seq hn => ?_⟩, ?_⟩
  · rw [hid o seq (hnum ▸ hn)]
    exact hp.numbered o seq (hnum ▸ hn)
  · rw [hleft]
    exact hs

/-- The datagram gets its number. -/
theorem named (h : Follows servers keyOf sessionId (some g) log) {o : SessionObj} {seq : UInt32}
    (hnone : number g.pc = none) (hnum : number pc = some (o, seq))
    (hleft : left servers keyOf' g.source pc = left servers keyOf g.source g.pc) :
    Follows servers keyOf' sessionId' (some { g with pc := pc }) log := by
  obtain ⟨p, hp, hs⟩ := h
  refine ⟨{ p with sessionId := sessionId' o, seq }, ⟨hp.source, hp.payload,
    fun _ => hp.unnumbered hnone, fun o' seq' hn => ?_⟩, ?_⟩
  · obtain ⟨rfl, rfl⟩ := Prod.mk.inj (Option.some.inj (hnum.symm.trans hn))
    exact ⟨rfl, rfl⟩
  · rw [hleft]
    exact hs.named (hp.unnumbered hnone) _ _

/-- The datagram takes the next path. -/
theorem leg (h : Follows servers keyOf sessionId (some g) log) {o : SessionObj} {seq : UInt32}
    {l : Leg} (hnum : number g.pc = some (o, seq)) (hnum' : number pc = some (o, seq))
    (hid : sessionId' o = sessionId o)
    (hleft : left servers keyOf g.source g.pc = l.path :: left servers keyOf' g.source pc)
    (hl : l.Sound (encodePacket (sessionId o) seq g.payload)) :
    Follows servers keyOf' sessionId' (some { g with pc := pc }) (log ++ [.leg l]) := by
  obtain ⟨p, hp, hs⟩ := h
  obtain ⟨hsid, hseq⟩ := hp.numbered o seq hnum
  rw [hleft] at hs
  rw [← hsid, ← hseq, ← hp.payload] at hl
  refine ⟨{ p with legs := p.legs ++ [l] },
    ⟨hp.source, hp.payload, fun hn => ?_, fun o' seq' hn => ?_⟩, hs.leg hl⟩
  · rw [hnum'] at hn
    exact absurd hn (by simp)
  · obtain ⟨rfl, rfl⟩ := Prod.mk.inj (Option.some.inj (hnum'.symm.trans hn))
    rw [hid]
    exact ⟨hsid, hseq⟩

/-- The datagram has taken every path. -/
theorem finish (h : Follows servers keyOf sessionId (some g) log)
    (hleft : left servers keyOf g.source g.pc = []) :
    Follows servers keyOf' sessionId' none log := by
  obtain ⟨p, -, hs⟩ := h
  rw [hleft] at hs
  exact hs.finish

/-- What the log says. -/
theorem every_path {sending : Option Sending} (h : Follows servers keyOf sessionId sending log) :
    ∃ (done : List Passage) (last : Option Passage),
      log = (done ++ last.toList).flatMap Passage.log ∧
        (∀ p ∈ done ++ last.toList, p.Sound) ∧
        (∀ p ∈ done, p.legs.map Leg.path = pathsOf servers p.source) ∧
        (∀ p ∈ last, p.legs.map Leg.path <+: pathsOf servers p.source) ∧
        (sending = none → last = none) := by
  cases sending with
  | none =>
      obtain ⟨done, last, hlog, hsound, hdone, hlast, hnone⟩ := Spreads.every_path h
      exact ⟨done, last, hlog, hsound, hdone, hlast, fun _ => hnone rfl⟩
  | some g =>
      obtain ⟨p, -, hs⟩ := h
      obtain ⟨done, last, hlog, hsound, hdone, hlast, -⟩ := hs.every_path
      exact ⟨done, last, hlog, hsound, hdone, hlast, fun hnone => absurd hnone (by simp)⟩

end Follows

end Fproxy.MultiPath
