import Fproxy.Client.ReaderCleanup
import Fproxy.Library.Simulation
import Fproxy.MultiPath

/-!
# The client sends every datagram on every path

`handle_packet` numbers a datagram once and sends it on every UDP sender and on the connection of
the source to every TCP server, which it opens if there is none.  Responses, expiry sweeps and
readers that tear down connections may come in between.

* `clientLog` — the runs of the client, observed through what becomes of the datagrams.
* `LogFollows.act` — every move follows one of the rules of `Fproxy.MultiPath`.
* **`datagrams_leave_on_every_path`** — the log of every run is made of complete passages.
-/

namespace Fproxy.Client

open Fproxy.Config Fproxy.MultiPath Fproxy.Protocol Fproxy.Runs Fproxy.TcpFraming

/-- What a connection was opened for. -/
def State.keyOf (s : State) (c : ConnId) : SessionKey := (s.cl.readers c).key

/-- What a section of `handle_packet` with the given observations means for its datagram. -/
def State.legLog (s : State) (h : Sending) (connected sendOk : Bool) (obs : List Obs) : List Log :=
  let sent := obs.filterMap (sentOn s.keyOf)
  match h.pc with
  | .udp _ _ (i :: _) => [.leg ⟨.udp i, sent, sendFailure sendOk⟩]
  | .tcpCreate _ _ server _ =>
      if s.cl.tcpSessions (h.source, server) = none ∧ connected = false then
        [.leg ⟨.tcp (h.source, server), sent, some .unreachable⟩]
      else sent.map fun x => .stray x.1 x.2
  | .tcpSend o seq c _ =>
      [.leg ⟨.tcp (s.keyOf c), sent,
        match s.cl.tcpFrameFor o seq h.payload with
        | .error _ => some .tooLarge
        | .ok _ => sendFailure sendOk⟩]
  | _ => sent.map fun x => .stray x.1 x.2

/-- What a move means for the datagrams. -/
def State.datagramLog (s : State) (e : Event) (obs : List Obs) : List Log :=
  match e with
  | .sourceSends source payload => [.received source payload]
  | .listener _ _ connected sendOk =>
      match s.sending with
      | none => []
      | some h => s.legLog h connected sendOk obs
  | _ => (obs.filterMap (sentOn s.keyOf)).map fun x => .stray x.1 x.2

/-- The client, observed through what becomes of the datagrams. -/
def clientLog (cfg : ClientConfig) (counter : UInt64) : Machine State Event Log :=
  (machine cfg counter).observe fun s e _ obs => s.datagramLog e obs

/-- The frame of a packet, if `send_tcp_frame` accepts it. -/
theorem tcpFrameFor_eq_ok {cl : Client} {o : SessionObj} {seq : UInt32}
    {payload frame : List UInt8} (h : cl.tcpFrameFor o seq payload = .ok frame) :
    frame = tcpFrame (encodePacket (cl.heap o).sessionId seq payload) ∧
      (encodePacket (cl.heap o).sessionId seq payload).length ≤ maxTcpFrameSize := by
  obtain ⟨hle, hframe⟩ := sendTcpFrame_eq_ok h
  exact ⟨hframe, hle⟩

theorem tcpFrameFor_eq_error {cl : Client} {o : SessionObj} {seq : UInt32} {payload : List UInt8}
    {e : SendError} (h : cl.tcpFrameFor o seq payload = .error e) :
    maxTcpFrameSize < (encodePacket (cl.heap o).sessionId seq payload).length := by
  by_contra hle
  have hok : cl.tcpFrameFor o seq payload = .ok _ := if_neg hle
  exact absurd (hok.symm.trans h) (by simp)

/-- A reader keeps its key. -/
theorem setReader_key (cl : Client) (c c' : ConnId) (pc : ReaderPc) :
    ((cl.setReader c pc).readers c').key = (cl.readers c').key := by
  by_cases h : c' = c <;> simp [setReader, h]

/-- The log goes with where the listener stands, and the connections are those of their keys. -/
def LogFollows (servers : List Endpoint) (s : State) (log : List Log) : Prop :=
  Follows servers s.keyOf (fun o => (s.cl.heap o).sessionId) s.sending log

namespace LogFollows

variable {servers : List Endpoint} {s s' : State} {log : List Log}

/-- A move of another task. -/
theorem frame (hi : LogFollows servers s log) (hsend : s'.sending = s.sending)
    (hkey : s'.keyOf = s.keyOf)
    (hid : ∀ o, (s'.cl.heap o).sessionId = (s.cl.heap o).sessionId) :
    LogFollows servers s' (log ++ []) := by
  unfold LogFollows at hi ⊢
  rw [hsend, hkey, List.append_nil]
  cases hs : s.sending with
  | none =>
      rw [hs] at hi
      exact hi
  | some g =>
      rw [hs] at hi
      exact hi.goto rfl rfl fun o _ _ => hid o

/-- The step lemma. -/
theorem act {e : Event} {obs : List Obs} (hi : LogFollows servers s log)
    (hcfg : s.cl.cfg.servers = servers) (hk : Keyed s.cl) (ha : Act s e s' obs) :
    LogFollows servers s' (log ++ s.datagramLog e obs) := by
  -- the listener's task moves on without sending
  have hgoto : ∀ {g : Sending} {pc : SendPc} {s₁ : State}, s.sending = some g →
      s₁.sending = some { g with pc := pc } →
      left servers s₁.keyOf g.source pc = left servers s.keyOf g.source g.pc →
      number pc = number g.pc →
      (∀ o, number g.pc = some o → (s₁.cl.heap o.1).sessionId = (s.cl.heap o.1).sessionId) →
      LogFollows servers s₁ (log ++ []) := by
    intro g pc s₁ hs hs₁ hleft hnum hid
    unfold LogFollows at hi ⊢
    rw [hs] at hi
    rw [hs₁, List.append_nil]
    exact hi.goto hleft hnum fun o seq hn => hid (o, seq) hn
  cases ha with
  | @sourceSends source payload hnone =>
      unfold LogFollows at hi ⊢
      rw [hnone] at hi
      exact hi.receive source payload
  | lookupHit hs hpc _ | lookupMiss hs hpc _ | createHit hs hpc _ =>
      simp only [State.datagramLog, hs, State.legLog, hpc]
      exact hgoto hs rfl (by rw [hpc]; rfl) (by rw [hpc]; rfl) (by rw [hpc]; simp [number])
  | @createNew g now random b b' hs hpc hnone =>
      simp only [State.datagramLog, hs, State.legLog, hpc]
      refine hgoto hs rfl ?_ (by rw [hpc]; rfl) (by rw [hpc]; simp [number])
      rw [hpc]
      rfl
  | number hs hpc =>
      unfold LogFollows at hi ⊢
      rw [hs] at hi
      simp only [State.datagramLog, hs, State.legLog, hpc]
      rw [show List.map _ _ = ([] : List Log) from rfl, List.append_nil]
      exact hi.named (by rw [hpc]; rfl) rfl (by rw [hpc]; rfl)
  | @touch g o seq now random b b' hs hpc =>
      simp only [State.datagramLog, hs, State.legLog, hpc]
      refine hgoto hs rfl ?_ (by rw [hpc]; rfl) (fun _ _ => touch_sessionId _ _ _ _)
      rw [hpc, hcfg]
      rfl
  | udpDone hs hpc =>
      simp only [State.datagramLog, hs, State.legLog, hpc]
      refine hgoto hs rfl ?_ (by rw [hpc]; rfl) (fun _ _ => rfl)
      rw [hpc, hcfg]
      rfl
  | udpSend hs hpc =>
      unfold LogFollows at hi ⊢
      rw [hs] at hi
      simp only [State.datagramLog, hs, State.legLog, hpc]
      refine hi.leg (by rw [hpc]; rfl) rfl rfl (by rw [hpc]; rfl) (.of_send ?_ (by simp))
      split <;> rfl
  | tcpDone hs hpc =>
      unfold LogFollows at hi ⊢
      rw [hs] at hi
      simp only [State.datagramLog, hs, State.legLog, hpc]
      rw [show List.map _ _ = ([] : List Log) from rfl, List.append_nil]
      exact hi.finish (by rw [hpc]; rfl)
  | @tcpHit g o seq server servers c now random b b' hs hpc hc =>
      simp only [State.datagramLog, hs, State.legLog, hpc]
      refine hgoto hs rfl ?_ (by rw [hpc]; rfl) (fun _ _ => rfl)
      rw [hpc]
      exact left_tcpTouch s.keyOf (hk.stored _ c hc).2.1 o seq servers
  | tcpMiss hs hpc _ =>
      simp only [State.datagramLog, hs, State.legLog, hpc]
      exact hgoto hs rfl (by rw [hpc]; rfl) (by rw [hpc]; rfl) (fun _ _ => rfl)
  | @tcpCreateHit g o seq server servers c now random b b' hs hpc hc =>
      simp only [State.datagramLog, hs, State.legLog, hpc, hc, reduceCtorEq, false_and, if_false]
      refine hgoto hs rfl ?_ (by rw [hpc]; rfl) (fun _ _ => rfl)
      rw [hpc]
      exact left_tcpTouch s.keyOf (hk.stored _ c hc).2.1 o seq servers
  | @tcpCreateFail g o seq server servers now random b' hs hpc hnone =>
      unfold LogFollows at hi ⊢
      rw [hs] at hi
      simp only [State.datagramLog, hs, State.legLog, hpc, hnone, and_self, if_true]
      exact hi.leg (by rw [hpc]; rfl) rfl rfl (by rw [hpc]; rfl)
        (.of_failure (by simp) (by simp))
  | @tcpCreateNew g o seq server servers now random b' hs hpc hnone =>
      simp only [State.datagramLog, hs, State.legLog, hpc, hnone, Bool.true_eq_false, and_false,
        if_false]
      have hreader : ((s.cl.createTcpSession g.source server now true).1.readers
          s.cl.nextConn).key = (g.source, server) := by
        simp only [createTcpSession, hnone, if_true, Function.update_self]
      have hheap : (s.cl.createTcpSession g.source server now true).1.heap = s.cl.heap := by
        simp only [createTcpSession, hnone, if_true]
      refine hgoto hs rfl ?_ (by rw [hpc]; rfl) (fun o' _ => by rw [hheap])
      rw [hpc]
      exact left_tcpTouch s.keyOf hreader o seq servers
  | tcpTouch hs hpc =>
      simp only [State.datagramLog, hs, State.legLog, hpc]
      exact hgoto hs rfl (by rw [hpc]; rfl) (by rw [hpc]; rfl) (fun _ _ => rfl)
  | @tcpSend g o seq c servers frame now random b b' hs hpc hframe =>
      unfold LogFollows at hi ⊢
      rw [hs] at hi
      simp only [State.datagramLog, hs, State.legLog, hpc, hframe]
      obtain ⟨rfl, hle⟩ := tcpFrameFor_eq_ok hframe
      refine hi.leg (by rw [hpc]; rfl) rfl rfl (by rw [hpc]; rfl) (.of_send ?_ fun _ _ => hle)
      split <;> rfl
  | tcpTooLarge hs hpc hframe =>
      unfold LogFollows at hi ⊢
      rw [hs] at hi
      simp only [State.datagramLog, hs, State.legLog, hpc, hframe]
      exact hi.leg (by rw [hpc]; rfl) rfl rfl (by rw [hpc]; rfl)
        (.of_failure (fun _ => tcpFrameFor_eq_error hframe) (by simp))
  | frameBegins _ _ | frameUndecodable _ | frameEnds _ _ _ | readerFails _ _
  | readerCancelled _ _ _ =>
      exact hi.frame rfl (funext fun c => setReader_key _ _ _ _) fun _ => rfl
  | cleanup _ =>
      refine hi.frame rfl (funext fun c => ?_) fun o => ?_
      · show ((Client.setReader _ _ _).readers c).key = _
        rw [setReader_key, cleanupTcpSession_readers]
        rfl
      · simp [setReader]
  | checkDup _ _ _ | checkNew _ _ _ =>
      exact hi.frame rfl rfl (checkResponse_sessionId _ _ · _)
  | responseTouch _ _ => exact hi.frame rfl rfl (touch_sessionId _ _ · _)
  | _ => exact hi.frame rfl rfl fun _ => rfl

end LogFollows

/-- The configuration does not change. -/
theorem cfg_act {s s' : State} {e : Event} {obs : List Obs} (ha : Act s e s' obs) :
    s'.cl.cfg = s.cl.cfg := by
  cases ha with
  | createNew _ _ hnone => simp only [createUdpSession, hnone]
  | tcpCreateNew _ _ hnone => simp only [createTcpSession, hnone, if_true]
  | cleanup _ =>
      show (Client.cleanupTcpSession _ _).cfg = _
      rw [cleanupTcpSession_eq]
  | _ => rfl

section Runs

variable {cfg : ClientConfig} {counter : UInt64} {es : List Event} {s : State} {log : List Log}

/-- The run lemma. -/
theorem logFollows_exec (h : (clientLog cfg counter).exec es = some (s, log)) :
    s.cl.cfg = cfg ∧ LogFollows cfg.servers s log := by
  refine (clientLog cfg counter).exec_induction
    (P := fun _ s log => s.cl.cfg = cfg ∧ LogFollows cfg.servers s log)
    ⟨rfl, Spreads.nil⟩ (fun es s log e s' o hrun hi hs => ?_) es s log h
  obtain ⟨obs, hstep, rfl⟩ := Machine.observe_step.mp hs
  obtain ⟨_, hrun'⟩ := Machine.exec_of_observe hrun
  have ha := act_of_machine hstep
  exact ⟨(cfg_act ha).trans hi.1, hi.2.act (by rw [hi.1]) (keyed_exec hrun') ha⟩

/-- **Every datagram leaves on every path.**  What a run of the client does with the datagrams is
a sequence of complete passages, and at most one that is under way: a datagram is received, and
then one packet, with one session id and one number, takes every UDP sender and the source's
connection to every TCP server, in the order of the configuration.  A path is left out only if its
server cannot be reached, the packet does not fit a frame or the send fails, and nothing is sent
otherwise. -/
theorem datagrams_leave_on_every_path (h : (clientLog cfg counter).exec es = some (s, log)) :
    ∃ (done : List Passage) (last : Option Passage),
      log = (done ++ last.toList).flatMap Passage.log ∧
        (∀ p ∈ done ++ last.toList, p.Sound) ∧
        (∀ p ∈ done, p.legs.map Leg.path = pathsOf cfg.servers p.source) ∧
        (∀ p ∈ last, p.legs.map Leg.path <+: pathsOf cfg.servers p.source) ∧
        (s.sending = none → last = none) :=
  (logFollows_exec h).2.every_path

end Runs

/-- A datagram that is received while the TCP server cannot be reached, and one after it. -/
def unreachableOnce : List Event :=
  Event.sourceSends demoAddr [1] ::
    (List.replicate 7 (Event.listener 10 0 true true) ++ [Event.listener 10 0 false true] ++
      [Event.listener 10 0 true true] ++ sendDatagram demoAddr 20 10)

/-- The first datagram leaves over UDP only, the second on both paths. -/
theorem datagrams_leave_on_every_path_unreachable :
    ∃ s log, (clientLog demoConfig 0).exec unreachableOnce = some (s, log) ∧
      s.sending = none ∧
      (log.filterMap fun | .leg l => some l.failure | _ => none) =
        [none, some .unreachable, none, none] ∧
      ∃ (done : List Passage) (last : Option Passage),
        log = (done ++ last.toList).flatMap Passage.log ∧
          (∀ p ∈ done ++ last.toList, p.Sound) ∧
          (∀ p ∈ done, p.legs.map Leg.path = pathsOf demoConfig.servers p.source) ∧
          (∀ p ∈ last, p.legs.map Leg.path <+: pathsOf demoConfig.servers p.source) ∧
          (s.sending = none → last = none) := by
  have hview : ((clientLog demoConfig 0).exec unreachableOnce).map
      (fun r => (r.1.sending, r.2.filterMap fun | .leg l => some l.failure | _ => none)) =
        some (none, [none, some .unreachable, none, none]) := by decide
  obtain ⟨⟨s, log⟩, hrun, hv⟩ := Option.map_eq_some_iff.mp hview
  obtain ⟨hidle, hlegs⟩ := Prod.mk.inj hv
  exact ⟨s, log, hrun, hidle, hlegs, datagrams_leave_on_every_path hrun⟩

end Fproxy.Client
