import Fproxy.GoClient.Responses
import Fproxy.GoClient.Sending
import Fproxy.GoResponseReader
import Fproxy.Network

/-!
# A Go client, a Rust server, and the network between them

The two implementations speak one protocol, so either client may face either server.  Here the Go
client faces the Rust server.  The network delivers datagrams as before, and the frames of the
client whole: the server reads them without a deadline, and a `Write` of the client is taken to put
its frame on the connection or nothing.  The frames of the server travel as bytes, in the order
written, since the client reads them under deadlines: `incoming` is what each of its TCP readers has
met, chunks of bytes and deadlines, and `handleTCPServerResponse` tells what it makes of them.

A deadline that expires between the two bytes of a length prefix makes the reader take other bytes
for a prefix, and decode what nobody sent.  So the result is about runs in which none does.

* `machine` — the interleaved sides, each step guarded by what the network can deliver.
* `OutsidePrefixes` — the condition on the deadlines.
* `Wire` — what has arrived on the connections, and where the deadlines have expired.
* `MixedNetwork.Inv` — the invariant over both sides and the messages.
* `mixed_no_cross_source_leakage` — no payload reaches a source, or a target socket, it is not
  meant for.
* `leakage_of_deadline_in_prefix` — without the condition it can.
-/

namespace Fproxy

open Fproxy.Runs Fproxy.Protocol Fproxy.TcpFraming
open Fproxy.GoResponseReader (ConnEvent WireFrame arrived deadlineOffsets handleTCPServerResponse)
open Fproxy.Network (Requested Responded clientSentUdp serverSentUdp clientConnected
  tcpFrame_injective AssignedTo)

/-- Both sides, what each has done, and what the TCP readers of the client have met. -/
structure MixedNetwork where
  client : GoClient.State
  server : Server.State
  clientLog : List Client.Obs
  serverLog : List Server.Obs
  incoming : ConnId → List ConnEvent

namespace MixedNetwork

/-- A move of either side, or of the network. -/
inductive Event where
  | client (e : GoClient.Event)
  | server (e : Server.Event)
  /-- Bytes reach a TCP reader of the client, or its deadline expires. -/
  | reaches (c : ConnId) (e : ConnEvent)
  deriving DecidableEq

/-- The largest payload of a datagram on the target socket, which is bound to an IPv4 address. -/
def maxTargetDatagram : ℕ := 65507

/-- The frames that the server has written on a connection. -/
def framesOn (log : List Server.Obs) (c : ConnId) : List (List UInt8) :=
  log.filterMap fun
    | .sentTcp c' frame => if c' = c then some frame else none
    | _ => none

/-- What a side receives, the other side has sent; a TCP reader of the client has decoded it from
what it has met. -/
def deliverable (n : MixedNetwork) : Event → Bool
  | .client (.datagram _ data) => serverSentUdp n.serverLog data
  | .client (.bodyRead c data) => data ∈ (handleTCPServerResponse (n.incoming c)).decoded
  | .server (.udpArrives _ _ data) => clientSentUdp n.clientLog data
  | .server (.accept c) => clientConnected n.clientLog c
  | .server (.tcpArrives c data) => .sentTcp c (tcpFrame data) ∈ n.clientLog
  | .server (.targetReads _ payload) => payload.length ≤ maxTargetDatagram
  | .reaches c (.bytes chunk) =>
      (arrived (n.incoming c) ++ chunk).isPrefixOf (framesOn n.serverLog c).flatten
  | _ => true

/-- One move of either side, or of the network. -/
def step (n : MixedNetwork) (e : Event) : Option (MixedNetwork × List Empty) :=
  if n.deliverable e then
    match e with
    | .client e => (GoClient.step n.client e).map fun r =>
        ({ n with client := r.1, clientLog := n.clientLog ++ r.2 }, [])
    | .server e => (Server.step n.server e).map fun r =>
        ({ n with server := r.1, serverLog := n.serverLog ++ r.2 }, [])
    | .reaches c e =>
        some ({ n with incoming := Function.update n.incoming c (n.incoming c ++ [e]) }, [])
  else none

/-- A client and a server that have not met. -/
def machine (ccfg : GoClient.ClientConfig) (counter : UInt64) (scfg : Server.ServerConfig) :
    Machine MixedNetwork Event Empty where
  init := ⟨(GoClient.machine ccfg counter).init, (Server.machine scfg).init, [], [], fun _ => []⟩
  step := step

/-- So many bytes of the frames end between the two bytes of a prefix. -/
def InPrefix (frames : List (List UInt8)) (p : ℕ) : Prop :=
  ∃ k < frames.length, p = (frames.take k).flatten.length + 1

/-- A deadline of a TCP reader of the client does not expire between the two bytes of a prefix. -/
def OutsidePrefixes (n : MixedNetwork) (e : Event) : Prop :=
  ∀ c, e = .reaches c .deadline →
    ¬ InPrefix (framesOn n.serverLog c) (arrived (n.incoming c)).length

/-- The inversion lemma. -/
theorem cases_step {n n' : MixedNetwork} {e : Event} {obs : List Empty}
    (h : step n e = some (n', obs)) :
    (∃ ce s' co, e = .client ce ∧ n.deliverable (.client ce) = true ∧
      GoClient.step n.client ce = some (s', co) ∧
      n' = { n with client := s', clientLog := n.clientLog ++ co }) ∨
    (∃ se s' so, e = .server se ∧ n.deliverable (.server se) = true ∧
      Server.step n.server se = some (s', so) ∧
      n' = { n with server := s', serverLog := n.serverLog ++ so }) ∨
    ∃ c ev, e = .reaches c ev ∧ n.deliverable (.reaches c ev) = true ∧
      n' = { n with incoming := Function.update n.incoming c (n.incoming c ++ [ev]) } := by
  unfold step at h
  split at h
  · next hdel =>
      cases e with
      | client ce =>
          obtain ⟨⟨s', co⟩, hs, he⟩ := Option.map_eq_some_iff.mp h
          exact .inl ⟨ce, s', co, rfl, hdel, hs, (Prod.mk.inj he).1.symm⟩
      | server se =>
          obtain ⟨⟨s', so⟩, hs, he⟩ := Option.map_eq_some_iff.mp h
          exact .inr (.inl ⟨se, s', so, rfl, hdel, hs, (Prod.mk.inj he).1.symm⟩)
      | reaches c ev =>
          exact .inr (.inr ⟨c, ev, rfl, hdel, (Prod.mk.inj (Option.some.inj h)).1.symm⟩)
  · exact absurd h (by simp)

/-- The server takes in what the client sent: the guard is the one of the other network. -/
theorem requested_of_deliverable {n : MixedNetwork} {e : Server.Event}
    (h : n.deliverable (.server e) = true) (source : Server.Source) (data : List UInt8)
    (hp : e.packet = some (source, data)) : Requested n.clientLog source data := by
  let n' : Network := ⟨(Client.machine ⟨[], 0⟩ 0).init, n.server, n.clientLog, n.serverLog⟩
  have hguard : n'.deliverable (.server e) = true := by
    cases e with
    | targetReads o payload => rfl
    | _ => exact h
  exact Network.requested_of_deliverable hguard source data hp

/-! ### What arrives on a connection -/

theorem framesOn_append (log obs : List Server.Obs) (c : ConnId) :
    framesOn (log ++ obs) c = framesOn log c ++ framesOn obs c :=
  List.filterMap_append

theorem mem_framesOn {log : List Server.Obs} {c : ConnId} {frame : List UInt8} :
    frame ∈ framesOn log c ↔ .sentTcp c frame ∈ log := by
  simp only [framesOn, List.mem_filterMap]
  constructor
  · rintro ⟨obs, hm, hobs⟩
    cases obs with
    | sentTcp c' frame' =>
        dsimp only at hobs
        by_cases hc : c' = c
        · rw [if_pos hc] at hobs
          rw [← hc, ← Option.some.inj hobs]
          exact hm
        · rw [if_neg hc] at hobs
          exact absurd hobs (by simp)
    | _ => exact absurd hobs (by simp)
  · intro hm
    exact ⟨_, hm, if_pos rfl⟩

/-- Bytes of frames that were there before end where they did. -/
theorem InPrefix.of_append {frames more : List (List UInt8)} {p : ℕ}
    (h : InPrefix (frames ++ more) p) (hp : p ≤ frames.flatten.length) : InPrefix frames p := by
  obtain ⟨k, hk, rfl⟩ := h
  by_cases hlt : k < frames.length
  · exact ⟨k, hlt, by rw [List.take_append_of_le_length hlt.le]⟩
  · have hall : frames.take k = frames := List.take_of_length_le (Nat.le_of_not_lt hlt)
    rw [List.take_append, hall, List.flatten_append, List.length_append] at hp
    omega

/-- The bytes that have arrived are the first of those written, and no deadline has expired in a
prefix. -/
structure Wire (n : MixedNetwork) : Prop where
  arrived : ∀ c, arrived (n.incoming c) <+: (framesOn n.serverLog c).flatten
  deadlines : ∀ c, ∀ p ∈ deadlineOffsets (n.incoming c), ¬ InPrefix (framesOn n.serverLog c) p

/-- More frames behind those written. -/
theorem Wire.server {n : MixedNetwork} (hi : Wire n) (s' : Server.State) (obs : List Server.Obs) :
    Wire { n with server := s', serverLog := n.serverLog ++ obs } where
  arrived := fun c => by
    show _ <+: (framesOn (n.serverLog ++ obs) c).flatten
    rw [framesOn_append, List.flatten_append]
    exact (hi.arrived c).trans (List.prefix_append _ _)
  deadlines := fun c p hp => by
    show ¬ InPrefix (framesOn (n.serverLog ++ obs) c) p
    rw [framesOn_append]
    intro hin
    have hle := GoResponseReader.le_arrived_of_mem_deadlineOffsets hp
    exact hi.deadlines c p hp (hin.of_append (hle.trans (hi.arrived c).length_le))

/-- A move of the network. -/
theorem Wire.reaches {n : MixedNetwork} (hi : Wire n) {c : ConnId} {ev : ConnEvent}
    (hdel : n.deliverable (.reaches c ev) = true) (hdeadline : OutsidePrefixes n (.reaches c ev)) :
    Wire { n with incoming := Function.update n.incoming c (n.incoming c ++ [ev]) } where
  arrived := fun c' => by
    by_cases hc : c' = c
    · subst hc
      simp only [Function.update_self, GoResponseReader.arrived_append]
      cases ev with
      | bytes chunk =>
          have hpre := List.isPrefixOf_iff_prefix.mp hdel
          simpa [GoResponseReader.arrived] using hpre
      | deadline => simpa [GoResponseReader.arrived] using hi.arrived c'
    · simp only [Function.update_of_ne hc]
      exact hi.arrived c'
  deadlines := fun c' p hp => by
    by_cases hc : c' = c
    · subst hc
      simp only [Function.update_self] at hp
      cases ev with
      | bytes chunk =>
          rw [GoResponseReader.deadlineOffsets_bytes] at hp
          exact hi.deadlines c' p hp
      | deadline =>
          rw [GoResponseReader.deadlineOffsets_deadline] at hp
          rcases List.mem_append.mp hp with hp | hp
          · exact hi.deadlines c' p hp
          · rw [List.mem_singleton.mp hp]
            exact hdeadline c' rfl
    · simp only [Function.update_of_ne hc] at hp
      exact hi.deadlines c' p hp

theorem exists_map_bytes {l : List (List UInt8)}
    (h : ∀ frame ∈ l, ∃ f : WireFrame, f.bytes = frame) :
    ∃ frames : List WireFrame, frames.map WireFrame.bytes = l := by
  induction l with
  | nil => exact ⟨[], rfl⟩
  | cons frame rest ih =>
      obtain ⟨f, hf⟩ := h frame List.mem_cons_self
      obtain ⟨fs, hfs⟩ := ih fun frame' hm => h frame' (List.mem_cons_of_mem _ hm)
      exact ⟨f :: fs, by rw [List.map_cons, hf, hfs]⟩

/-- If the frames written fit their prefixes, a reader decodes such frames only. -/
theorem Wire.decoded {n : MixedNetwork} (hi : Wire n) {c : ConnId}
    (hfit : ∀ frame ∈ framesOn n.serverLog c, ∃ f : WireFrame, f.bytes = frame)
    {data : List UInt8} (hdata : data ∈ (handleTCPServerResponse (n.incoming c)).decoded) :
    .sentTcp c (tcpFrame data) ∈ n.serverLog := by
  obtain ⟨frames, hframes⟩ := exists_map_bytes hfit
  have hfirst := GoResponseReader.decoded_isPrefix frames (n.incoming c)
    (by rw [WireFrame.stream, hframes]; exact hi.arrived c) (fun p hp hin => by
      obtain ⟨k, hk, rfl⟩ := hin
      refine hi.deadlines c _ hp ⟨k, by rw [← hframes, List.length_map]; exact hk, ?_⟩
      rw [WireFrame.stream, List.map_take, hframes])
  obtain ⟨f, hf, rfl⟩ := List.mem_map.mp (hfirst.subset hdata)
  exact mem_framesOn.mp (hframes ▸ List.mem_map_of_mem hf)

/-! ### The invariant -/

/-- What each side knows about itself, and of the other through the messages. -/
structure Inv (n : MixedNetwork) : Prop where
  objects : GoClient.Objects n.client n.clientLog
  sends : GoClient.Sends n.client n.clientLog
  receives : GoClient.Receives (Responded n.serverLog) n.client n.clientLog
  requests : Server.Requests (Requested n.clientLog) n.server n.serverLog
  responses : Server.Responses (Server.Carries (Requested n.clientLog)) n.server n.serverLog
  wire : Wire n
  small : ∀ o sid payload, .targetRead o sid payload ∈ n.serverLog →
    payload.length ≤ maxTargetDatagram

/-- Every frame the server has written fits its prefix. -/
theorem Inv.fits {n : MixedNetwork} (hi : Inv n) {c : ConnId} {frame : List UInt8}
    (hm : frame ∈ framesOn n.serverLog c) : ∃ f : WireFrame, f.bytes = frame := by
  obtain ⟨sid, seq, payload, rfl, ⟨o, hread⟩, -⟩ := hi.responses.sentTcp c frame (mem_framesOn.mp hm)
  have hsmall := hi.small o sid payload hread
  have hlen : (encodePacket sid seq payload).length = headerSize + payload.length :=
    encodePacket_length ..
  refine ⟨⟨encodePacket sid seq payload, ?_, ?_⟩, rfl⟩
  · intro hnil
    rw [hnil, List.length_nil, headerSize] at hlen
    omega
  · rw [hlen]
    simp only [maxTargetDatagram, maxTcpFrameSize, headerSize] at hsmall ⊢
    omega

/-- What the client takes in, the server has sent. -/
theorem Inv.responded {n : MixedNetwork} (hi : Inv n) {e : GoClient.Event}
    (h : n.deliverable (.client e) = true) (t : Client.Responder) (data : List UInt8)
    (hp : e.packet = some (t, data)) : Responded n.serverLog t data := by
  cases e with
  | datagram i data' =>
      obtain ⟨rfl, rfl⟩ := Prod.mk.inj (Option.some.inj hp)
      obtain ⟨obs, hm, hobs⟩ := List.any_eq_true.mp h
      split at hobs
      · next l addr data'' =>
          obtain rfl : data'' = data' := of_decide_eq_true hobs
          exact ⟨l, addr, hm⟩
      · exact absurd hobs (by simp)
  | bodyRead c data' =>
      obtain ⟨rfl, rfl⟩ := Prod.mk.inj (Option.some.inj hp)
      have hdecoded : data' ∈ (handleTCPServerResponse (n.incoming c)).decoded := of_decide_eq_true h
      exact hi.wire.decoded (fun _ hm => hi.fits hm) hdecoded
  | _ => exact absurd hp (by simp [GoClient.Event.packet])

/-- A move of the client. -/
theorem Inv.client {n : MixedNetwork} (hi : Inv n) {e : GoClient.Event} {s' : GoClient.State}
    {obs : List Client.Obs} (hdel : n.deliverable (.client e) = true)
    (hs : GoClient.step n.client e = some (s', obs)) :
    Inv { n with client := s', clientLog := n.clientLog ++ obs } where
  objects := hi.objects.act (GoClient.act_of_step hs)
  sends := hi.sends.act hi.objects (GoClient.act_of_step hs)
  receives := hi.receives.act hi.objects (GoClient.act_of_step hs) (hi.responded hdel)
  requests := hi.requests.mono Requested.append
  responses := hi.responses.mono fun _ _ h => by
    obtain ⟨seq, payload, hp⟩ := h
    exact ⟨seq, payload, hp.append⟩
  wire := ⟨hi.wire.arrived, hi.wire.deadlines⟩
  small := hi.small

/-- A move of the server. -/
theorem Inv.server {n : MixedNetwork} (hi : Inv n) {e : Server.Event} {s' : Server.State}
    {obs : List Server.Obs} (hdel : n.deliverable (.server e) = true)
    (hs : Server.step n.server e = some (s', obs)) :
    Inv { n with server := s', serverLog := n.serverLog ++ obs } where
  objects := hi.objects
  sends := hi.sends
  receives := hi.receives.mono Responded.append
  requests := hi.requests.act (Server.act_of_step hs) (requested_of_deliverable hdel)
  responses := hi.responses.act
    (fun sid c w hl => (hi.requests.listed sid c w hl).1 ▸ (hi.requests.listed sid c w hl).2)
    (Server.act_of_step hs)
  wire := hi.wire.server s' obs
  small := fun o sid payload hm => by
    rcases List.mem_append.mp hm with hm | hm
    · exact hi.small o sid payload hm
    · obtain rfl := (Server.act_of_step hs).targetRead hm
      exact of_decide_eq_true hdel

/-- A move of the network. -/
theorem Inv.reaches {n : MixedNetwork} (hi : Inv n) {c : ConnId} {ev : ConnEvent}
    (hdel : n.deliverable (.reaches c ev) = true) (hdeadline : OutsidePrefixes n (.reaches c ev)) :
    Inv { n with incoming := Function.update n.incoming c (n.incoming c ++ [ev]) } :=
  ⟨hi.objects, hi.sends, hi.receives, hi.requests, hi.responses, hi.wire.reaches hdel hdeadline,
    hi.small⟩

section Runs

variable {ccfg : GoClient.ClientConfig} {counter : UInt64} {scfg : Server.ServerConfig}
  {es : List Event} {n : MixedNetwork} {tr : List Empty}

/-- The client's part of a run is a run of the client. -/
theorem client_run (hrun : (machine ccfg counter scfg).exec es = some (n, tr)) :
    ∃ ces, (GoClient.machine ccfg counter).exec ces = some (n.client, n.clientLog) := by
  refine Machine.invariant
    (I := fun n _ => ∃ ces, (GoClient.machine ccfg counter).exec ces = some (n.client, n.clientLog))
    _ ⟨[], rfl⟩ (fun n tr e n' o hi hs => ?_) hrun
  obtain ⟨ces, hces⟩ := hi
  rcases cases_step hs with
    ⟨ce, s', co, _, _, hstep, rfl⟩ | ⟨_, _, _, _, _, _, rfl⟩ | ⟨_, _, _, _, rfl⟩
  · exact ⟨ces ++ [ce], (GoClient.machine ccfg counter).exec_snoc.mpr
      ⟨n.client, n.clientLog, co, hces, hstep, rfl⟩⟩
  · exact ⟨ces, hces⟩
  · exact ⟨ces, hces⟩

/-- The run lemma. -/
theorem inv_exec (hdeadlines : (machine ccfg counter scfg).Each (fun n _ e => OutsidePrefixes n e) es)
    (hrun : (machine ccfg counter scfg).exec es = some (n, tr)) : Inv n := by
  refine Machine.invariant_of_each (I := fun n _ => Inv n) ?_ (fun n tr e n' o hi hC hs => ?_)
    hdeadlines hrun
  · -- the server starts as it does with the other client
    have hserver := Network.inv_exec (Network.machine ⟨[], 0⟩ 0 scfg).exec_nil
    refine ⟨GoClient.objects_exec (GoClient.machine ccfg counter).exec_nil,
      GoClient.sends_exec (GoClient.machine ccfg counter).exec_nil,
      ⟨fun _ _ h => absurd h (by simp [machine, GoClient.machine]),
        fun _ _ _ h => absurd h (by simp [machine, GoClient.machine]),
        fun _ _ _ h => absurd h List.not_mem_nil, fun _ _ _ _ _ h => absurd h List.not_mem_nil⟩,
      hserver.requests, hserver.responses,
      ⟨fun _ => List.nil_prefix, fun _ _ h => absurd h List.not_mem_nil⟩,
      fun _ _ _ h => absurd h List.not_mem_nil⟩
  · rcases cases_step hs with
      ⟨ce, s', co, _, hdel, hstep, rfl⟩ | ⟨se, s', so, _, hdel, hstep, rfl⟩ |
      ⟨c, ev, rfl, hdel, rfl⟩
    · exact hi.client hdel hstep
    · exact hi.server hdel hstep
    · exact hi.reaches hdel hC

end Runs

/-! ### No leakage -/

/-- A request names a source that sent its payload under an id of its own. -/
theorem Inv.sentFor_of_requested {n : MixedNetwork} (hi : Inv n) (source : Server.Source)
    {sid : UInt64} {seq : UInt32} {payload : List UInt8}
    (h : Requested n.clientLog source (encodePacket sid seq payload)) :
    ∃ a, Client.SentFor n.clientLog sid payload a := by
  have hpacket : ∀ {a : SocketAddr},
      Client.PacketFor n.clientLog (encodePacket sid seq payload) a →
        Client.SentFor n.clientLog sid payload a := by
    intro a hp
    obtain ⟨sid', seq', payload', he, hs⟩ := hp
    have hinj := encodePacket_injective (a := (sid, seq, payload)) (b := (sid', seq', payload')) he
    obtain ⟨rfl, -, rfl⟩ : sid = sid' ∧ seq = seq' ∧ payload = payload' := by simpa using hinj
    exact hs
  cases source with
  | udp l addr =>
      obtain ⟨i, hm⟩ := h
      obtain ⟨a, hp⟩ := hi.sends.sentUdp i _ hm
      exact ⟨a, hpacket hp⟩
  | tcp c =>
      obtain ⟨a, packet, he, hp⟩ := hi.sends.sentTcp c _ h
      rw [← tcpFrame_injective he] at hp
      exact ⟨a, hpacket hp⟩

/-- A response carries a payload that was read from the target socket of a session with its id. -/
theorem Inv.read_of_responded {n : MixedNetwork} (hi : Inv n) {t : Client.Responder} {sid : UInt64}
    {seq : UInt32} {payload : List UInt8}
    (h : Responded n.serverLog t (encodePacket sid seq payload)) :
    Server.ReadFor n.serverLog sid payload := by
  have hinj : ∀ {sid' : UInt64} {seq' : UInt32} {payload' : List UInt8},
      encodePacket sid seq payload = encodePacket sid' seq' payload' →
        sid = sid' ∧ payload = payload' := by
    intro sid' seq' payload' he
    have heq := encodePacket_injective (a := (sid, seq, payload)) (b := (sid', seq', payload')) he
    simp only [Prod.mk.injEq] at heq
    exact ⟨heq.1, heq.2.2⟩
  cases t with
  | udp i =>
      obtain ⟨l, addr, hm⟩ := h
      obtain ⟨sid', seq', payload', he, hr⟩ := hi.responses.sentUdp l addr _ hm
      obtain ⟨rfl, rfl⟩ := hinj he
      exact hr
  | tcp c =>
      obtain ⟨sid', seq', payload', he, hr, -⟩ := hi.responses.sentTcp c _ h
      obtain ⟨rfl, rfl⟩ := hinj (tcpFrame_injective he)
      exact hr

/-- **No cross-source leakage between the two implementations.**  In every run of a Go client that
creates fewer than `2^64` sessions and a Rust server, with any delay, loss, duplication and
reordering of datagrams and any chunks on the connections, in which no deadline of the client's TCP
readers expires between the two bytes of a prefix: every payload the client forwards to a source was
read from the target socket of a session whose id is that source's and no other's, and every payload
the server forwards for a session was sent by the source the session's id was assigned to. -/
theorem mixed_no_cross_source_leakage (ccfg : GoClient.ClientConfig) (counter : UInt64)
    (scfg : Server.ServerConfig) (es : List Event) {n : MixedNetwork} {tr : List Empty}
    (hrun : (machine ccfg counter scfg).exec es = some (n, tr))
    (hdeadlines : (machine ccfg counter scfg).Each (fun n _ e => OutsidePrefixes n e) es)
    (hlen : (Client.createdIds n.clientLog).length ≤ 2 ^ 64 - 1) :
    (∀ o seq source payload ok, .forwarded o seq source payload ok ∈ n.clientLog →
      ∃ sid so, AssignedTo n.clientLog sid source ∧
        .targetRead so sid payload ∈ n.serverLog) ∧
    ∀ o sid seq payload ok, .forwarded o sid seq payload ok ∈ n.serverLog →
      ∃ source, AssignedTo n.clientLog sid source ∧ .received source payload ∈ n.clientLog := by
  have hi := inv_exec hdeadlines hrun
  obtain ⟨ces, hces⟩ := client_run hrun
  have hnodup := GoClient.nodup_exec hces (by omega)
  have honly : ∀ {sid source}, Client.Assigned n.clientLog sid source →
      AssignedTo n.clientLog sid source := by
    intro sid source h
    refine ⟨h, fun source' h' => ?_⟩
    obtain ⟨o, ho⟩ := h
    obtain ⟨o', ho'⟩ := h'
    exact (Client.created_unique hnodup ho' ho).2
  refine ⟨fun o seq source payload ok hm => ?_, fun o sid seq payload ok hm => ?_⟩
  · obtain ⟨t, sid, -, ha, -, hassigned⟩ := hi.receives.forwarded o seq source payload ok hm
    obtain ⟨so, hread⟩ := hi.read_of_responded ha
    exact ⟨sid, so, honly hassigned, hread⟩
  · obtain ⟨src, hreq⟩ := hi.requests.forwarded o sid seq payload ok hm
    obtain ⟨a, hassigned, hreceived⟩ := hi.sentFor_of_requested _ hreq
    exact ⟨a, honly hassigned, hreceived⟩

/-- The condition on a step, computed. -/
def outsidePrefixesCheck (n : MixedNetwork) : Event → Bool
  | .reaches c .deadline =>
      (List.range (framesOn n.serverLog c).length).all fun k =>
        (arrived (n.incoming c)).length ≠ ((framesOn n.serverLog c).take k).flatten.length + 1
  | _ => true

theorem outsidePrefixes_of_check {n : MixedNetwork} {e : Event}
    (h : outsidePrefixesCheck n e = true) : OutsidePrefixes n e := by
  rintro c rfl ⟨k, hk, he⟩
  exact of_decide_eq_true (List.all_eq_true.mp h k (List.mem_range.mpr hk)) he

/-- The bytes of the answer come in on connection 0 in two chunks, between two deadlines. -/
def answerArrives : List Event :=
  let frame := tcpFrame (encodeTcp 1 0 [2])
  [.reaches 0 .deadline, .reaches 0 (.bytes (frame.take 1)), .reaches 0 (.bytes (frame.drop 1)),
    .reaches 0 .deadline]

/-- The client takes the answer in on connection 0. -/
def takeAnswer : List GoClient.Event :=
  ([.readerSelect 0, .lengthRead 0 13, .bodyRead 0 (encodeTcp 1 0 [2])] : List GoClient.Event) ++
    List.replicate 6 (GoClient.Event.responder (.tcp 0) 30 [demoAddr] true)

/-- A datagram travels over TCP to the target, and the answer back. -/
def roundTrip : List Event :=
  (GoClient.sendDatagram demoAddr 10 11).map .client ++
    (Network.serve 0 1 [1] [2]).map .server ++ answerArrives ++ takeAnswer.map .client

/-- Both ends of the round trip are the right ones. -/
theorem mixed_no_cross_source_leakage_round_trip :
    ∃ n tr, (machine GoClient.demoConfig 0 Server.demoConfig).exec roundTrip = some (n, tr) ∧
      (∃ sid so, AssignedTo n.clientLog sid demoAddr ∧ .targetRead so sid [2] ∈ n.serverLog) ∧
      ∃ source, AssignedTo n.clientLog 1 source ∧ .received source [1] ∈ n.clientLog := by
  have hview : ((machine GoClient.demoConfig 0 Server.demoConfig).exec roundTrip).map
      (fun r => ((Client.createdIds r.1.clientLog).length,
        decide (.forwarded 0 0 demoAddr [2] true ∈ r.1.clientLog),
        decide (.forwarded 0 1 0 [1] true ∈ r.1.serverLog))) = some (1, true, true) := by
    decide +kernel
  obtain ⟨⟨n, tr⟩, hrun, hv⟩ := Option.map_eq_some_iff.mp hview
  simp only [Prod.mk.injEq, decide_eq_true_eq] at hv
  obtain ⟨hlen, hclient, hserver⟩ := hv
  have hdeadlines : (machine GoClient.demoConfig 0 Server.demoConfig).Each
      (fun n _ e => OutsidePrefixes n e) roundTrip :=
    Machine.each_of_check (fun _ _ _ => outsidePrefixes_of_check) (by decide +kernel)
  have hleak := mixed_no_cross_source_leakage _ _ _ roundTrip hrun hdeadlines (by rw [hlen]; decide)
  exact ⟨n, tr, hrun, hleak.1 _ _ _ _ _ hclient, hleak.2 _ _ _ _ _ hserver⟩

/-- An answer to session 1 whose bytes hold a frame of session 2. -/
def hiddenFrame : List UInt8 :=
  List.replicate 245 0 ++ tcpFrame (encodeTcp 2 0 [66]) ++ List.replicate 241 0

/-- The answer as it goes out on connection 0. -/
def answer : List UInt8 := tcpFrame (encodeTcp 1 0 hiddenFrame)

/-- The deadline expires behind the first byte.  The reader takes the next two for a prefix, and the
packet that they announce ends where the hidden frame begins. -/
def takeHiddenFrame : List GoClient.Event :=
  let order := [demoAddr, Network.otherAddr]
  ([.readerSelect 0, .lengthRead 0 256, .bodyRead 0 ((answer.drop 3).take 256),
    .responder (.tcp 0) 30 order true, .readerSelect 0, .lengthRead 0 13,
    .bodyRead 0 (encodeTcp 2 0 [66])] : List GoClient.Event) ++
    List.replicate 6 (GoClient.Event.responder (.tcp 0) 30 order true)

/-- Two sources have sessions, and the first one is answered. -/
def deadlineInPrefix : List Event :=
  (GoClient.sendDatagram demoAddr 10 11 ++ GoClient.sendDatagram Network.otherAddr 10 11).map
      .client ++
    (Network.serve 0 1 [1] hiddenFrame).map .server ++
    [Event.reaches 0 (.bytes (answer.take 1)), Event.reaches 0 .deadline,
      Event.reaches 0 (.bytes (answer.drop 1))] ++ takeHiddenFrame.map .client

/-- Without the condition on the deadlines a source is sent what no target has sent. -/
theorem leakage_of_deadline_in_prefix :
    ∃ n tr, (machine GoClient.demoConfig 0 Server.demoConfig).exec deadlineInPrefix = some (n, tr) ∧
      .forwarded 1 0 Network.otherAddr [66] true ∈ n.clientLog ∧
      ∀ o sid payload, .targetRead o sid payload ∈ n.serverLog → payload ≠ [66] := by
  have hview : ((machine GoClient.demoConfig 0 Server.demoConfig).exec deadlineInPrefix).map
      (fun r => (decide (.forwarded 1 0 Network.otherAddr [66] true ∈ r.1.clientLog),
        r.1.serverLog.all fun
          | .targetRead _ _ payload => payload ≠ [66]
          | _ => true)) = some (true, true) := by decide +kernel
  obtain ⟨⟨n, tr⟩, hrun, hv⟩ := Option.map_eq_some_iff.mp hview
  simp only [Prod.mk.injEq, decide_eq_true_eq] at hv
  refine ⟨n, tr, hrun, hv.1, fun o sid payload hm => ?_⟩
  have hall := List.all_eq_true.mp hv.2 _ hm
  exact of_decide_eq_true hall

end MixedNetwork

end Fproxy
