import Fproxy.Client.Receiving
import Fproxy.Client.SessionIds
import Fproxy.Server.Provenance

/-!
# One client, one server, and the network between them

The network remembers everything either side ever sent, and may deliver any of it at any time, any
number of times, or never: a datagram to any UDP socket of the other side, a frame to the other
end of its connection.  It makes nothing up.  A frame is one message; how the read loops take a
byte stream apart into frames is the subject of `Fproxy.TcpFraming`.

* `machine` — the interleaved client and the interleaved server, each step guarded by what the
  network can deliver.
* `Network.Inv` — the invariant over both sides and the messages; `inv_exec` — it holds after
  every run.
* `no_cross_source_leakage` — no payload reaches a source, or a target socket, it is not meant
  for.
-/

namespace Fproxy

open Fproxy.Runs Fproxy.Protocol Fproxy.TcpFraming

/-- Both sides, and what each has done. -/
structure Network where
  client : Client.State
  server : Server.State
  clientLog : List Client.Obs
  serverLog : List Server.Obs

namespace Network

/-- A move of either side. -/
inductive Event where
  | client (e : Client.Event)
  | server (e : Server.Event)
  deriving DecidableEq

/-! ### What the network can deliver -/

/-- The client sent this datagram. -/
def clientSentUdp (log : List Client.Obs) (data : List UInt8) : Bool :=
  log.any fun
    | .sentUdp _ data' => data' = data
    | _ => false

/-- The server sent this datagram. -/
def serverSentUdp (log : List Server.Obs) (data : List UInt8) : Bool :=
  log.any fun
    | .sentUdp _ _ data' => data' = data
    | _ => false

/-- The client opened this connection. -/
def clientConnected (log : List Client.Obs) (c : ConnId) : Bool :=
  log.any fun
    | .connected c' _ _ => c' = c
    | _ => false

/-- What a side receives, the other side has sent. -/
def deliverable (n : Network) : Event → Bool
  | .client (.udpArrives _ data) => serverSentUdp n.serverLog data
  | .client (.frameEnds c data) => .sentTcp c (tcpFrame data) ∈ n.serverLog
  | .server (.udpArrives _ _ data) => clientSentUdp n.clientLog data
  | .server (.accept c) => clientConnected n.clientLog c
  | .server (.tcpArrives c data) => .sentTcp c (tcpFrame data) ∈ n.clientLog
  | _ => true

/-- One move of either side. -/
def step (n : Network) (e : Event) : Option (Network × List Empty) :=
  if n.deliverable e then
    match e with
    | .client e => (Client.step n.client e).map fun r =>
        ({ n with client := r.1, clientLog := n.clientLog ++ r.2 }, [])
    | .server e => (Server.step n.server e).map fun r =>
        ({ n with server := r.1, serverLog := n.serverLog ++ r.2 }, [])
  else none

/-- A client and a server that have not met. -/
def machine (ccfg : Client.ClientConfig) (counter : UInt64) (scfg : Server.ServerConfig) :
    Machine Network Event Empty where
  init := ⟨(Client.machine ccfg counter).init, (Server.machine scfg).init, [], []⟩
  step := step

/-- The inversion lemma. -/
theorem cases_step {n n' : Network} {e : Event} {obs : List Empty}
    (h : step n e = some (n', obs)) :
    (∃ ce s' co, e = .client ce ∧ n.deliverable (.client ce) = true ∧
      Client.step n.client ce = some (s', co) ∧
      n' = { n with client := s', clientLog := n.clientLog ++ co }) ∨
    ∃ se s' so, e = .server se ∧ n.deliverable (.server se) = true ∧
      Server.step n.server se = some (s', so) ∧
      n' = { n with server := s', serverLog := n.serverLog ++ so } := by
  unfold step at h
  split at h
  · next hdel =>
      cases e with
      | client ce =>
          obtain ⟨⟨s', co⟩, hs, he⟩ := Option.map_eq_some_iff.mp h
          exact Or.inl ⟨ce, s', co, rfl, hdel, hs, (Prod.mk.inj he).1.symm⟩
      | server se =>
          obtain ⟨⟨s', so⟩, hs, he⟩ := Option.map_eq_some_iff.mp h
          exact Or.inr ⟨se, s', so, rfl, hdel, hs, (Prod.mk.inj he).1.symm⟩
  · exact absurd h (by simp)

/-! ### The messages on the network -/

/-- The network can deliver this request to this task of the server. -/
def Requested (log : List Client.Obs) : Server.Source → List UInt8 → Prop
  | .udp _ _, data => ∃ i, .sentUdp i data ∈ log
  | .tcp c, data => .sentTcp c (tcpFrame data) ∈ log

/-- The network can deliver this response to this reader of the client. -/
def Responded (log : List Server.Obs) : Client.Responder → List UInt8 → Prop
  | .udp _, data => ∃ l addr, .sentUdp l addr data ∈ log
  | .tcp c, data => .sentTcp c (tcpFrame data) ∈ log

theorem Requested.append {log obs : List Client.Obs} (source : Server.Source) (data : List UInt8)
    (h : Requested log source data) : Requested (log ++ obs) source data := by
  cases source with
  | udp l addr => exact h.imp fun _ hm => List.mem_append_left _ hm
  | tcp c => exact List.mem_append_left _ h

theorem Responded.append {log obs : List Server.Obs} (t : Client.Responder) (data : List UInt8)
    (h : Responded log t data) : Responded (log ++ obs) t data := by
  cases t with
  | udp i =>
      obtain ⟨l, addr, hm⟩ := h
      exact ⟨l, addr, List.mem_append_left _ hm⟩
  | tcp c => exact List.mem_append_left _ h

theorem requested_of_deliverable {n : Network} {e : Server.Event}
    (h : n.deliverable (.server e) = true) (source : Server.Source) (data : List UInt8)
    (hp : e.packet = some (source, data)) : Requested n.clientLog source data := by
  cases e with
  | udpArrives l addr data' =>
      obtain ⟨rfl, rfl⟩ := Prod.mk.inj (Option.some.inj hp)
      obtain ⟨obs, hm, hobs⟩ := List.any_eq_true.mp h
      split at hobs
      · next i data'' =>
          obtain rfl : data'' = data' := of_decide_eq_true hobs
          exact ⟨i, hm⟩
      · exact absurd hobs (by simp)
  | tcpArrives c data' =>
      obtain ⟨rfl, rfl⟩ := Prod.mk.inj (Option.some.inj hp)
      show Client.Obs.sentTcp c (tcpFrame data') ∈ n.clientLog
      exact of_decide_eq_true h
  | _ => exact absurd hp (by simp [Server.Event.packet])

theorem responded_of_deliverable {n : Network} {e : Client.Event}
    (h : n.deliverable (.client e) = true) (t : Client.Responder) (data : List UInt8)
    (hp : e.packet = some (t, data)) : Responded n.serverLog t data := by
  cases e with
  | udpArrives i data' =>
      obtain ⟨rfl, rfl⟩ := Prod.mk.inj (Option.some.inj hp)
      obtain ⟨obs, hm, hobs⟩ := List.any_eq_true.mp h
      split at hobs
      · next l addr data'' =>
          obtain rfl : data'' = data' := of_decide_eq_true hobs
          exact ⟨l, addr, hm⟩
      · exact absurd hobs (by simp)
  | frameEnds c data' =>
      obtain ⟨rfl, rfl⟩ := Prod.mk.inj (Option.some.inj hp)
      show Server.Obs.sentTcp c (tcpFrame data') ∈ n.serverLog
      exact of_decide_eq_true h
  | _ => exact absurd hp (by simp [Client.Event.packet])

theorem deliverable_of_no_packet {n : Network} {e : Client.Event} (h : e.packet = none) :
    n.deliverable (.client e) = true := by
  cases e with
  | udpArrives | frameEnds => exact absurd h (by simp [Client.Event.packet])
  | _ => rfl

/-! ### The invariant -/

/-- What the client knows about itself, what the server knows about itself, and what each knows of
the other through the messages. -/
structure Inv (n : Network) : Prop where
  objects : Client.Objects n.client n.clientLog
  sends : Client.Sends n.client n.clientLog
  receives : Client.Receives (Responded n.serverLog) n.client n.clientLog
  requests : Server.Requests (Requested n.clientLog) n.server n.serverLog
  responses : Server.Responses (Server.Carries (Requested n.clientLog)) n.server n.serverLog

/-- A move of the client. -/
theorem Inv.client {n : Network} (hi : Inv n) {e : Client.Event} {s' : Client.State}
    {obs : List Client.Obs} (hdel : n.deliverable (.client e) = true)
    (hs : Client.step n.client e = some (s', obs)) :
    Inv { n with client := s', clientLog := n.clientLog ++ obs } where
  objects := hi.objects.act (Client.act_of_step hs)
  sends := hi.sends.act hi.objects (Client.act_of_step hs)
  receives := hi.receives.act hi.objects hi.sends (Client.act_of_step hs)
    (responded_of_deliverable hdel)
  requests := hi.requests.mono Requested.append
  responses := hi.responses.mono fun _ _ h => by
    obtain ⟨seq, payload, hp⟩ := h
    exact ⟨seq, payload, hp.append⟩

/-- A move of the server. -/
theorem Inv.server {n : Network} (hi : Inv n) {e : Server.Event} {s' : Server.State}
    {obs : List Server.Obs} (hdel : n.deliverable (.server e) = true)
    (hs : Server.step n.server e = some (s', obs)) :
    Inv { n with server := s', serverLog := n.serverLog ++ obs } where
  objects := hi.objects
  sends := hi.sends
  receives := hi.receives.mono Responded.append
  requests := hi.requests.act (Server.act_of_step hs) (requested_of_deliverable hdel)
  responses := hi.responses.act
    (fun sid c w hl => (hi.requests.listed sid c w hl).1 ▸ (hi.requests.listed sid c w hl).2)
    (Server.act_of_step hs)

/-- The step lemma. -/
theorem Inv.step {n n' : Network} {e : Event} {obs : List Empty} (hi : Inv n)
    (hs : Network.step n e = some (n', obs)) : Inv n' := by
  rcases cases_step hs with ⟨ce, s', co, _, hdel, hstep, rfl⟩ | ⟨se, s', so, _, hdel, hstep, rfl⟩
  · exact hi.client hdel hstep
  · exact hi.server hdel hstep

section Runs

variable {ccfg : Client.ClientConfig} {counter : UInt64} {scfg : Server.ServerConfig}
  {es : List Event} {n : Network} {tr : List Empty}

/-- The client's part of a run is a run of the client. -/
theorem client_run (hrun : (machine ccfg counter scfg).exec es = some (n, tr)) :
    ∃ ces, (Client.machine ccfg counter).exec ces = some (n.client, n.clientLog) := by
  refine Machine.invariant
    (I := fun n _ => ∃ ces, (Client.machine ccfg counter).exec ces = some (n.client, n.clientLog))
    _ ⟨[], rfl⟩ (fun n tr e n' o hi hs => ?_) hrun
  obtain ⟨ces, hces⟩ := hi
  rcases cases_step hs with ⟨ce, s', co, _, _, hstep, rfl⟩ | ⟨_, _, _, _, _, _, rfl⟩
  · exact ⟨ces ++ [ce], (Client.machine ccfg counter).exec_snoc.mpr
      ⟨n.client, n.clientLog, co, hces, hstep, rfl⟩⟩
  · exact ⟨ces, hces⟩

/-- The run lemma. -/
theorem inv_exec (hrun : (machine ccfg counter scfg).exec es = some (n, tr)) : Inv n := by
  refine Machine.invariant (I := fun n _ => Inv n) _ ?_ (fun n tr e n' o hi hs => hi.step hs) hrun
  exact ⟨Client.objects_exec (Client.machine ccfg counter).exec_nil,
    Client.sends_exec (Client.machine ccfg counter).exec_nil,
    ⟨fun _ _ h => absurd h (by simp [machine, Client.machine]),
      fun _ _ h => absurd h (by simp [machine, Client.machine]),
      fun _ _ _ h => absurd h (by simp [machine, Client.machine]),
      fun _ _ _ _ _ h => absurd h List.not_mem_nil⟩,
    ⟨fun _ _ h => absurd h (by simp [machine, Server.machine]),
      fun _ _ _ _ _ h => absurd h List.not_mem_nil,
      fun _ _ _ h => absurd h (by simp [machine, Server.machine, Server.new, Server.Lists])⟩,
    ⟨fun _ h => absurd rfl h, fun _ _ h => absurd h (by simp [machine, Server.machine,
        Server.new, Server.ReceiverPc.payload]),
      fun _ _ _ h => absurd h List.not_mem_nil, fun _ _ _ h => absurd h List.not_mem_nil,
      fun _ _ h => absurd h List.not_mem_nil⟩⟩

end Runs

/-! ### No leakage -/

/-- The frame of a packet determines the packet. -/
theorem tcpFrame_injective {p q : List UInt8} (h : tcpFrame p = tcpFrame q) : p = q := by
  have hlen : (lengthPrefix p).length = (lengthPrefix q).length := by simp [lengthPrefix]
  exact (List.append_inj h hlen).2

/-- A request names a source that sent its payload under an id of its own; on a connection, the
source the connection was opened for. -/
theorem Inv.sentFor_of_requested {n : Network} (hi : Inv n) (source : Server.Source)
    {sid : UInt64} {seq : UInt32} {payload : List UInt8}
    (h : Requested n.clientLog source (encodePacket sid seq payload)) :
    ∃ a, Client.SentFor n.clientLog sid payload a ∧
      ∀ c, source = .tcp c → Client.OpenedFor n.clientLog c a := by
  have hpacket : ∀ {a : SocketAddr},
      Client.PacketFor n.clientLog (encodePacket sid seq payload) a →
        Client.SentFor n.clientLog sid payload a := by
    rintro a ⟨sid', seq', payload', he, hs⟩
    obtain ⟨rfl, _, rfl⟩ : sid = sid' ∧ seq = seq' ∧ payload = payload' := by
      have hinj := encodePacket_injective (a := (sid, seq, payload)) (b := (sid', seq', payload')) he
      simpa using hinj
    exact hs
  cases source with
  | udp l addr =>
      obtain ⟨i, hm⟩ := h
      obtain ⟨a, hp⟩ := hi.sends.sentUdp i _ hm
      exact ⟨a, hpacket hp, fun c hc => absurd hc (by simp)⟩
  | tcp c =>
      obtain ⟨a, packet, he, hp, ho⟩ := hi.sends.sentTcp c _ h
      rw [← tcpFrame_injective he] at hp
      refine ⟨a, hpacket hp, fun c' hc => ?_⟩
      rw [← Server.Source.tcp.inj hc]
      exact ho

/-- A response names a session whose target socket its payload was read from; on a connection, a
session of the source the connection was opened for. -/
theorem Inv.read_of_responded {n : Network} (hi : Inv n) {t : Client.Responder} {sid : UInt64}
    {seq : UInt32} {payload : List UInt8}
    (h : Responded n.serverLog t (encodePacket sid seq payload)) :
    Server.ReadFor n.serverLog sid payload ∧
      ∀ c, t = .tcp c → ∃ a, Client.Assigned n.clientLog sid a ∧
        Client.OpenedFor n.clientLog c a := by
  have hinj : ∀ {sid' : UInt64} {seq' : UInt32} {payload' : List UInt8},
      encodePacket sid seq payload = encodePacket sid' seq' payload' →
        sid = sid' ∧ payload = payload' := by
    intro sid' seq' payload' he
    have heq := encodePacket_injective (a := (sid, seq, payload)) (b := (sid', seq', payload')) he
    simp only [Prod.mk.injEq] at heq
    exact ⟨heq.1, heq.2.2⟩
  cases t with
  | udp i =>
      obtain ⟨l, addr, hm⟩ := h
      obtain ⟨sid', seq', payload', he, hr⟩ := hi.responses.sentUdp l addr _ hm
      obtain ⟨rfl, rfl⟩ := hinj he
      exact ⟨hr, fun c hc => absurd hc (by simp)⟩
  | tcp c =>
      obtain ⟨sid', seq', payload', he, hr, seq'', payload'', hreq⟩ := hi.responses.sentTcp c _ h
      obtain ⟨rfl, rfl⟩ := hinj (tcpFrame_injective he)
      obtain ⟨a, hs, ho⟩ := hi.sentFor_of_requested (.tcp c) hreq
      refine ⟨hr, fun c' hc => ⟨a, hs.1, ?_⟩⟩
      rw [← Client.Responder.tcp.inj hc]
      exact ho c rfl

/-- The id was assigned to this source and to no other. -/
def AssignedTo (log : List Client.Obs) (sid : UInt64) (source : SocketAddr) : Prop :=
  Client.Assigned log sid source ∧ ∀ source', Client.Assigned log sid source' → source' = source

/-- **No cross-source leakage.**  In every run of a client that creates fewer than `2^64` sessions
and a server, with any delay, loss, duplication and reordering between them: every payload the
client forwards to a source was read from the target socket of a session whose id is that
source's, and every payload the server forwards for a session was sent by the source the session's
id was assigned to. -/
theorem no_cross_source_leakage (ccfg : Client.ClientConfig) (counter : UInt64)
    (scfg : Server.ServerConfig) (es : List Event) {n : Network} {tr : List Empty}
    (hrun : (machine ccfg counter scfg).exec es = some (n, tr))
    (hlen : (Client.createdIds n.clientLog).length ≤ 2 ^ 64 - 1) :
    (∀ o seq source payload ok, .forwarded o seq source payload ok ∈ n.clientLog →
      ∃ sid so, AssignedTo n.clientLog sid source ∧
        .targetRead so sid payload ∈ n.serverLog) ∧
    ∀ o sid seq payload ok, .forwarded o sid seq payload ok ∈ n.serverLog →
      ∃ source, AssignedTo n.clientLog sid source ∧ .received source payload ∈ n.clientLog := by
  have hi := inv_exec hrun
  obtain ⟨ces, hces⟩ := client_run hrun
  have hnodup := Client.createdIds_nodup hces (by omega)
  have honly : ∀ {sid source}, Client.Assigned n.clientLog sid source →
      AssignedTo n.clientLog sid source := fun h =>
    ⟨h, fun _ h' => (Client.created_unique hnodup h'.choose_spec h.choose_spec).2⟩
  refine ⟨fun o seq source payload ok hm => ?_, fun o sid seq payload ok hm => ?_⟩
  · obtain ⟨t, sid, ha, hr⟩ := hi.receives.forwarded o seq source payload ok hm
    obtain ⟨⟨so, hread⟩, htcp⟩ := hi.read_of_responded ha
    refine ⟨sid, so, honly ?_, hread⟩
    cases t with
    | udp i => exact hr
    | tcp c =>
        -- the connection belongs to one source, and carries sessions of that source only
        obtain ⟨a, hassigned, ho⟩ := htcp c rfl
        rw [hi.sends.owner c source a hr ho]
        exact hassigned
  · obtain ⟨src, hreq⟩ := hi.requests.forwarded o sid seq payload ok hm
    obtain ⟨a, ⟨hassigned, hreceived⟩, _⟩ := hi.sentFor_of_requested _ hreq
    exact ⟨a, honly hassigned, hreceived⟩

/-- A new source sends a datagram, which goes out on both paths. -/
def sends (source : SocketAddr) (payload : List UInt8) : List Client.Event :=
  .sourceSends source payload :: List.replicate 11 (.listener 10 0 true true)

/-- The server takes the datagram of a session in on connection `c`, and answers it. -/
def serve (c : ConnId) (sid : UInt64) (payload answer : List UInt8) : List Server.Event :=
  [Server.Event.accept c, Server.Event.tcpArrives c (encodeTcp sid 0 payload)] ++
    List.replicate 7 (Server.Event.handler (.conn c) 10 true true) ++
    Server.Event.targetReads c answer :: List.replicate 4 (Server.Event.receiver c 20 true)

/-- The client takes the answer in on connection `c`. -/
def takeAnswer (c : ConnId) (sid : UInt64) (answer : List UInt8) : List Client.Event :=
  [Client.Event.frameBegins c, Client.Event.frameEnds c (encodeTcp sid 0 answer)] ++
    List.replicate 4 (Client.Event.responder (.tcp c) 30 true)

/-- A second source. -/
def otherAddr : SocketAddr := ⟨.v4 0x7f000001, 5001⟩

/-- Datagrams of two sources travel to their targets over TCP, and the answers back, the last one
first. -/
def roundTrips : List Event :=
  (sends demoAddr [1] ++ sends otherAddr [2]).map .client ++
    (serve 0 1 [1] [3] ++ serve 1 2 [2] [4]).map .server ++
    (takeAnswer 1 2 [4] ++ takeAnswer 0 1 [3]).map .client

/-- Both ends of the round trips are the right ones. -/
theorem no_cross_source_leakage_round_trips :
    ∃ n tr, (machine Client.demoConfig 0 Server.demoConfig).exec roundTrips = some (n, tr) ∧
      ((∃ sid so, AssignedTo n.clientLog sid demoAddr ∧ .targetRead so sid [3] ∈ n.serverLog) ∧
        ∃ sid so, AssignedTo n.clientLog sid otherAddr ∧ .targetRead so sid [4] ∈ n.serverLog) ∧
      (∃ source, AssignedTo n.clientLog 1 source ∧ .received source [1] ∈ n.clientLog) ∧
        ∃ source, AssignedTo n.clientLog 2 source ∧ .received source [2] ∈ n.clientLog := by
  have hview : ((machine Client.demoConfig 0 Server.demoConfig).exec roundTrips).map
      (fun r => ((Client.createdIds r.1.clientLog).length,
        decide (.forwarded 0 0 demoAddr [3] true ∈ r.1.clientLog),
        decide (.forwarded 1 0 otherAddr [4] true ∈ r.1.clientLog),
        decide (.forwarded 0 1 0 [1] true ∈ r.1.serverLog),
        decide (.forwarded 1 2 0 [2] true ∈ r.1.serverLog))) =
      some (2, true, true, true, true) := by decide +kernel
  obtain ⟨⟨n, tr⟩, hrun, hv⟩ := Option.map_eq_some_iff.mp hview
  simp only [Prod.mk.injEq, decide_eq_true_eq] at hv
  obtain ⟨hlen, hclient, hclient', hserver, hserver'⟩ := hv
  have hleak := no_cross_source_leakage _ _ _ roundTrips hrun (by rw [hlen]; decide)
  exact ⟨n, tr, hrun, ⟨hleak.1 _ _ _ _ _ hclient, hleak.1 _ _ _ _ _ hclient'⟩,
    hleak.2 _ _ _ _ _ hserver, hleak.2 _ _ _ _ _ hserver'⟩

end Network

end Fproxy
