import Fproxy.GoClient.Connections
import Fproxy.GoClient.Sending
import Fproxy.Library.Simulation
import Fproxy.MultiPath

/-!
# The Go client sends every datagram on every path

`handlePacket` does for the datagrams what `handle_packet` of the Rust client does, in the same
order.  Here the sockets may be closed by `Stop`, and `sendTCPFrame` would refuse a session that is
marked as closed.

* `clientLog` — the runs of the client, observed through what becomes of the datagrams.
* `Unmarked` — no session is ever marked as closed.
* `quiet_of_step` — only the listener's goroutine sends datagrams.
* `LogFollows.step` — every move follows one of the rules of `Fproxy.MultiPath`.
* **`go_datagrams_leave_on_every_path`** — the log of every run is made of complete passages.
-/

namespace Fproxy.GoClient

open Fproxy.Config Fproxy.GoFrameWriter Fproxy.MultiPath Fproxy.Protocol Fproxy.Runs
  Fproxy.TcpFraming Fproxy.GoProtocol
open Fproxy.Client (SessionObj SessionKey Sending SendPc Obs)

/-- What a connection was opened for. -/
def State.keyOf (s : State) (c : ConnId) : SessionKey := (s.readers c).key

/-- Why `sendTCPFrame` refuses a packet. -/
def refusal : SendResult → Failure
  | .frameTooLarge => .tooLarge
  | _ => .closed

/-- What a section of `handlePacket` with the given observations means for its datagram. -/
def State.legLog (s : State) (h : Sending) (connected sendOk : Bool) (obs : List Obs) : List Log :=
  let sent := obs.filterMap (sentOn s.keyOf)
  match h.pc with
  | .udp _ _ (i :: _) => [.leg ⟨.udp i, sent, sendFailure (sendOk && !s.sendersClosed)⟩]
  | .tcpCreate _ _ server _ =>
      if s.cl.tcpSessions (h.source, server) = none ∧ connected = false then
        [.leg ⟨.tcp (h.source, server), sent, some .unreachable⟩]
      else sent.map fun x => .stray x.1 x.2
  | .tcpSend o seq c _ =>
      [.leg ⟨.tcp (s.keyOf c), sent,
        match s.cl.tcpFrameFor c o seq h.payload with
        | .error e => some (refusal e)
        | .ok _ => sendFailure (sendOk && !(s.cl.tcpHeap c).connClosed)⟩]
  | _ => sent.map fun x => .stray x.1 x.2

/-- What a move means for the datagrams. -/
def State.datagramLog (s : State) (e : Event) (obs : List Obs) : List Log :=
  match e with
  | .sourceSends source payload => [.received source payload]
  | .listener _ _ connected sendOk =>
      match s.sending with
      | none => []
      | some h => s.legLog h connected sendOk obs
  | _ => (obs.filterMap (sentOn s.keyOf)).map fun x => .stray x.1 x.2

/-- The client, observed through what becomes of the datagrams. -/
def clientLog (cfg : ClientConfig) (counter : UInt64) : Machine State Event Log :=
  (machine cfg counter).observe fun s e _ obs => s.datagramLog e obs

/-- What the datagrams do not see: the goroutine of the listener stays where it is, nothing is sent,
and the keys, the ids and the configuration are the same. -/
structure Quiet (s s' : State) (obs : List Obs) : Prop where
  sending : s'.sending = s.sending
  nothing : ∀ keyOf, obs.filterMap (sentOn keyOf) = []
  key : ∀ c, (s'.readers c).key = (s.readers c).key
  sessionId : ∀ o, (s'.cl.heap o).sessionId = (s.cl.heap o).sessionId
  cfg : s'.cl.cfg = s.cl.cfg

theorem Quiet.of_eq {s s' : State} (hsend : s'.sending = s.sending)
    (hkey : s'.readers = s.readers) (hcl : s'.cl = s.cl) : Quiet s s' [] :=
  ⟨hsend, fun _ => rfl, fun _ => by rw [hkey], fun _ => by rw [hcl], by rw [hcl]⟩

theorem Quiet.setReader (s : State) (c : ConnId) (pc : ReaderPc) : Quiet s (s.setReader c pc) [] :=
  ⟨rfl, fun _ => rfl, fun c' => setReader_key s c c' pc, fun _ => rfl, rfl⟩

theorem Quiet.received {s s' : State} (h : Quiet s s' []) (t : Fproxy.Client.Responder)
    (data : List UInt8) : Quiet s (received s' t data) [] := by
  unfold GoClient.received
  split
  · exact h
  · exact ⟨h.sending, h.nothing, h.key, h.sessionId, h.cfg⟩

/-- The handling of a response. -/
theorem quiet_of_stepResponder {s s' : State} {t : Fproxy.Client.Responder} {r : Response}
    {now : ℕ} {order : List SocketAddr} {b : Bool} {obs : List Obs}
    (h : stepResponder s t r now order b = (s', obs)) : Quiet s s' obs := by
  unfold stepResponder at h
  dsimp only at h
  split at h
  · split at h <;> obtain ⟨rfl, rfl⟩ := Prod.mk.inj h <;> exact .of_eq rfl rfl rfl
  · split at h <;> obtain ⟨rfl, rfl⟩ := Prod.mk.inj h <;> exact .of_eq rfl rfl rfl
  · next source o _ =>
      have hid : ∀ o', ((s.cl.checkResponse o r.seq).2.heap o').sessionId =
          (s.cl.heap o').sessionId := by
        intro o'
        by_cases ho : o' = o <;> simp [Client.checkResponse, ho]
      have hcfg : (s.cl.checkResponse o r.seq).2.cfg = s.cl.cfg := rfl
      cases hd : s.cl.checkResponse o r.seq with
      | mk dup cl =>
          rw [hd] at hid hcfg h
          cases dup <;> obtain ⟨rfl, rfl⟩ := Prod.mk.inj h <;>
            exact ⟨rfl, fun _ => rfl, fun _ => rfl, hid, hcfg⟩
  · next source o _ =>
      obtain ⟨rfl, rfl⟩ := Prod.mk.inj h
      refine ⟨rfl, fun _ => rfl, fun _ => rfl, fun o' => ?_, rfl⟩
      by_cases ho : o' = o <;> simp [State.setResponse, Client.touch, ho]
  · cases t with
    | udp i =>
        obtain ⟨rfl, rfl⟩ := Prod.mk.inj h
        exact .of_eq rfl rfl rfl
    | tcp c =>
        obtain ⟨rfl, rfl⟩ := Prod.mk.inj h
        have hsame := SameUdp.touchStored s.cl (s.readers c).key now
        have hcfg := (s.cl.touchStored_tables (s.readers c).key now).1
        exact ⟨rfl, fun _ => rfl, fun _ => rfl,
          fun o' => congrArg (fun heap => (heap o').sessionId) hsame.heap, hcfg⟩
  · obtain ⟨rfl, rfl⟩ := Prod.mk.inj h
    exact ⟨rfl, fun _ => rfl, fun _ => rfl, fun _ => rfl, rfl⟩

/-- **Only the goroutine of the listener sends datagrams.** -/
theorem quiet_of_step {s s' : State} {e : Event} {obs : List Obs} (h : step s e = some (s', obs))
    (hl : ∀ now random b b', e ≠ .listener now random b b')
    (hr : ∀ source payload, e ≠ .sourceSends source payload) : Quiet s s' obs := by
  cases e with
  | sourceSends source payload => exact absurd rfl (hr source payload)
  | listener now random b b' => exact absurd rfl (hl now random b b')
  | listenerSelect | listenerFails | receiverSelect i | receiverFails i timeout | tick now
  | sweeperEnds =>
      simp only [step, Option.ite_none_right_eq_some, Option.some.injEq, Prod.mk.injEq] at h
      obtain ⟨-, rfl, rfl⟩ := h
      exact .of_eq rfl rfl rfl
  | datagram i data =>
      simp only [step, Option.ite_none_right_eq_some, Option.some.injEq, Prod.mk.injEq] at h
      obtain ⟨-, rfl, rfl⟩ := h
      have hquiet : Quiet s { s with receivers := Function.update s.receivers i .check } [] :=
        .of_eq rfl rfl rfl
      exact hquiet.received _ _
  | readerSelect c | lengthRead c length =>
      simp only [step, Option.ite_none_right_eq_some, Option.some.injEq, Prod.mk.injEq] at h
      obtain ⟨-, rfl, rfl⟩ := h
      exact .setReader s c _
  | bodyRead c data =>
      simp only [step, Option.ite_none_right_eq_some, Option.some.injEq, Prod.mk.injEq] at h
      obtain ⟨-, rfl, rfl⟩ := h
      exact (Quiet.setReader s c _).received _ _
  | readerFails c timeout =>
      simp only [step] at h
      split at h
      · obtain ⟨rfl, rfl⟩ := Prod.mk.inj (Option.some.inj h)
        exact .setReader s c _
      · obtain ⟨rfl, rfl⟩ := Prod.mk.inj (Option.some.inj h)
        exact .setReader s c _
      · exact absurd h (by simp)
  | cleanup c =>
      simp only [step] at h
      split at h
      · obtain ⟨-, h⟩ := Option.ite_none_left_eq_some.mp h
        obtain ⟨rfl, rfl⟩ := Prod.mk.inj (Option.some.inj h)
        exact ⟨rfl, fun _ => rfl, fun c' => setReader_key _ c c' _, fun _ => rfl, rfl⟩
      · obtain ⟨rfl, rfl⟩ := Prod.mk.inj (Option.some.inj h)
        exact .setReader s c _
      · obtain ⟨rfl, rfl⟩ := Prod.mk.inj (Option.some.inj h)
        exact ⟨rfl, fun _ => rfl, fun c' => setReader_key _ c c' _, fun _ => rfl, rfl⟩
      · exact absurd h (by simp)
  | responder t now order b =>
      simp only [step] at h
      split at h
      · exact absurd h (by simp)
      · obtain ⟨-, h⟩ := Option.ite_none_left_eq_some.mp h
        exact quiet_of_stepResponder (Option.some.inj h)
  | sweepSource source =>
      simp only [step] at h
      split at h
      · next now todo _ =>
          obtain ⟨-, h⟩ := Option.ite_none_right_eq_some.mp h
          obtain ⟨rfl, rfl⟩ := Prod.mk.inj (Option.some.inj h)
          have heq := expireUdp_eq s.cl now source
          exact ⟨rfl, fun _ => rfl, fun _ => rfl, fun _ => by rw [heq], by rw [heq]⟩
      · exact absurd h (by simp)
  | sweepKey key =>
      simp only [step] at h
      split at h
      · next now todo _ =>
          obtain ⟨-, h⟩ := Option.ite_none_right_eq_some.mp h
          obtain ⟨rfl, rfl⟩ := Prod.mk.inj (Option.some.inj h)
          have hsame := SameUdp.expireTcp s.cl now key
          have hcfg := (s.cl.expireTcp_cfg now key).1
          exact ⟨rfl, fun _ => rfl, fun _ => rfl,
            fun o' => congrArg (fun heap => (heap o').sessionId) hsame.heap, hcfg⟩
      · exact absurd h (by simp)
  | sweepOn =>
      simp only [step] at h
      split at h
      · obtain ⟨rfl, rfl⟩ := Prod.mk.inj (Option.some.inj h)
        exact .of_eq rfl rfl rfl
      · obtain ⟨rfl, rfl⟩ := Prod.mk.inj (Option.some.inj h)
        exact .of_eq rfl rfl rfl
      · obtain ⟨rfl, rfl⟩ := Prod.mk.inj (Option.some.inj h)
        exact .of_eq rfl rfl rfl
      · exact absurd h (by simp)
  | stop =>
      simp only [step, Option.map_eq_some_iff, Prod.mk.injEq] at h
      obtain ⟨s₁, h, rfl, rfl⟩ := h
      unfold stepStop at h
      split at h
      · obtain rfl := Option.some.inj h
        exact .of_eq rfl rfl rfl
      · obtain rfl := Option.some.inj h
        exact .of_eq rfl rfl rfl
      · obtain ⟨-, h⟩ := Option.ite_none_left_eq_some.mp h
        obtain rfl := Option.some.inj h
        exact .of_eq rfl rfl rfl
      · obtain ⟨-, h⟩ := Option.ite_none_left_eq_some.mp h
        obtain rfl := Option.some.inj h
        exact ⟨rfl, fun _ => rfl, fun _ => rfl, fun _ => rfl, rfl⟩
      · exact absurd h (by simp)

/-! ### No session is marked as closed -/

/-- No session has `closed` set. -/
def Unmarked (s : State) : Prop := ∀ c, (s.cl.tcpHeap c).closed = false

theorem Unmarked.update {s : State} (hi : Unmarked s) (c : ConnId) {x : TCPSession}
    (hx : x.closed = false) (c' : ConnId) : (Function.update s.cl.tcpHeap c x c').closed = false := by
  by_cases h : c' = c
  · rw [h, Function.update_self]
    exact hx
  · rw [Function.update_of_ne h]
    exact hi c'

/-- The step lemma: sessions are created unmarked, and nothing else writes the field. -/
theorem Unmarked.act {s s' : State} {e : Event} {obs : List Obs} (hi : Unmarked s)
    (ha : Act s e s' obs) : Unmarked s' := by
  intro c'
  cases ha with
  | loop hcl _ _ _ | arrive _ _ _ hcl _ _ _ =>
      rw [hcl]
      exact hi c'
  | createNew _ hnone =>
      simp only [Client.createUdpSession, hnone]
      exact hi c'
  | tcpCreateNew _ _ hnone =>
      simp only [Client.createTcpSession, hnone, if_true]
      exact hi.update _ rfl c'
  | tcpTouch _ _ =>
      refine hi.update _ ?_ c'
      exact hi _
  | responseTouchTcp _ _ =>
      show ((Client.touchStored _ _ _).tcpHeap c').closed = false
      unfold Client.touchStored
      split
      · exact hi c'
      · refine hi.update _ ?_ c'
        exact hi _
  | close _ =>
      refine hi.update _ ?_ c'
      exact hi _
  | @expireUdp now source todo _ _ =>
      rw [expireUdp_eq s.cl now source]
      exact hi c'
  | expireTcp _ _ =>
      show ((Client.expireTcp _ _ _).tcpHeap c').closed = false
      unfold Client.expireTcp
      split
      · exact hi c'
      · split
        · refine hi.update _ ?_ c'
          exact hi _
        · exact hi c'
  | closeAll _ _ =>
      show (ite _ _ _ : TCPSession).closed = false
      split <;> exact hi c'
  | _ => exact hi c'

/-- The run lemma. -/
theorem unmarked_exec {cfg : ClientConfig} {counter : UInt64} {es : List Event} {s : State}
    {tr : List Obs} (hrun : (machine cfg counter).exec es = some (s, tr)) : Unmarked s :=
  Machine.invariant (I := fun s _ => Unmarked s) _ (fun _ => rfl)
    (fun _ _ _ _ _ hi hs => hi.act (act_of_machine hs)) hrun

/-! ### The log -/

/-- A frame that is accepted fits. -/
theorem tcpFrameFor_fits {cl : Client} {c : ConnId} {o : SessionObj} {seq : UInt32}
    {payload frame : List UInt8} (h : cl.tcpFrameFor c o seq payload = .ok frame) :
    (encodePacket (cl.heap o).sessionId seq payload).length ≤ maxTcpFrameSize := by
  by_contra hlt
  rw [← encodeTCP_eq] at hlt
  have herr : cl.tcpFrameFor c o seq payload = .error .frameTooLarge :=
    if_pos (Nat.lt_of_not_le hlt)
  exact absurd (herr.symm.trans h) (by simp)

/-- A packet is refused only if it is too large. -/
theorem tcpFrameFor_tooLarge {cl : Client} {c : ConnId} {o : SessionObj} {seq : UInt32}
    {payload : List UInt8} {e : SendResult} (h : cl.tcpFrameFor c o seq payload = .error e)
    (hopen : (cl.tcpHeap c).closed = false) :
    refusal e = .tooLarge ∧
      maxTcpFrameSize < (encodePacket (cl.heap o).sessionId seq payload).length := by
  rw [← encodeTCP_eq]
  simp only [Client.tcpFrameFor, hopen, Bool.false_eq_true, if_false] at h
  split at h
  · obtain rfl := Except.error.inj h
    exact ⟨rfl, by assumption⟩
  · exact absurd h (by simp)

/-- The log goes with where the goroutine of the listener stands. -/
def LogFollows (servers : List Endpoint) (s : State) (log : List Log) : Prop :=
  Follows servers s.keyOf (fun o => (s.cl.heap o).sessionId) s.sending log

namespace LogFollows

variable {servers : List Endpoint} {s s' : State} {log : List Log}

/-- A move of another goroutine. -/
theorem quiet {obs : List Obs} (hi : LogFollows servers s log) (hq : Quiet s s' obs) :
    LogFollows servers s'
      (log ++ (obs.filterMap (sentOn s.keyOf)).map fun x => .stray x.1 x.2) := by
  have hkey : s'.keyOf = s.keyOf := funext hq.key
  unfold LogFollows at hi ⊢
  rw [hq.nothing, List.map_nil, List.append_nil, hq.sending, hkey]
  cases hs : s.sending with
  | none =>
      rw [hs] at hi
      exact hi
  | some g =>
      rw [hs] at hi
      exact hi.goto rfl rfl fun o _ _ => hq.sessionId o

/-- A section of `handlePacket`. -/
theorem listener {h : Sending} {now : ℕ} {random : UInt32} {connected sendOk : Bool}
    {obs : List Obs} (hi : LogFollows servers s log) (hcfg : s.cl.cfg.servers = servers)
    (hc : Connections s) (hu : Unmarked s) (hs : s.sending = some h)
    (he : stepListener s h now random connected sendOk = (s', obs)) :
    LogFollows servers s' (log ++ s.legLog h connected sendOk obs) := by
  unfold LogFollows at hi
  rw [hs] at hi
  -- the goroutine moves on without sending
  have hgoto : ∀ {pc : SendPc} {s₁ : State}, s₁.sending = some { h with pc := pc } →
      left servers s₁.keyOf h.source pc = left servers s.keyOf h.source h.pc →
      number pc = number h.pc →
      (∀ o, number h.pc = some o → (s₁.cl.heap o.1).sessionId = (s.cl.heap o.1).sessionId) →
      LogFollows servers s₁ (log ++ []) := by
    intro pc s₁ hs₁ hleft hnum hid
    unfold LogFollows
    rw [hs₁, List.append_nil]
    exact hi.goto hleft hnum fun o seq hn => hid (o, seq) hn
  unfold stepListener at he
  dsimp only at he
  cases hpc : h.pc with
  | lookup =>
      simp only [hpc] at he
      simp only [State.legLog, hpc]
      split at he <;> obtain ⟨rfl, rfl⟩ := Prod.mk.inj he <;>
        exact hgoto rfl (by rw [hpc]; rfl) (by rw [hpc]; rfl) (by rw [hpc]; simp [number])
  | create =>
      simp only [hpc] at he
      simp only [State.legLog, hpc]
      split at he <;> obtain ⟨rfl, rfl⟩ := Prod.mk.inj he <;>
        exact hgoto rfl (by rw [hpc]; rfl) (by rw [hpc]; rfl) (by rw [hpc]; simp [number])
  | number o =>
      simp only [hpc] at he
      obtain ⟨rfl, rfl⟩ := Prod.mk.inj he
      simp only [State.legLog, hpc]
      rw [show List.map _ _ = ([] : List Log) from rfl, List.append_nil]
      exact hi.named (by rw [hpc]; rfl) rfl (by rw [hpc]; rfl)
  | touch o seq =>
      simp only [hpc] at he
      obtain ⟨rfl, rfl⟩ := Prod.mk.inj he
      simp only [State.legLog, hpc]
      refine hgoto rfl ?_ (by rw [hpc]; rfl) fun o' _ => ?_
      · rw [hpc, hcfg]
        rfl
      · by_cases ho : o'.1 = o <;> simp [Client.touch, ho]
  | udp o seq senders =>
      cases senders with
      | nil =>
          simp only [hpc] at he
          obtain ⟨rfl, rfl⟩ := Prod.mk.inj he
          simp only [State.legLog, hpc]
          refine hgoto rfl ?_ (by rw [hpc]; rfl) fun _ _ => rfl
          rw [hpc, hcfg]
          rfl
      | cons i senders =>
          simp only [hpc] at he
          obtain ⟨rfl, rfl⟩ := Prod.mk.inj he
          simp only [State.legLog, hpc]
          refine hi.leg (by rw [hpc]; rfl) rfl rfl (by rw [hpc]; rfl) (.of_send ?_ (by simp))
          rw [udpPacket_eq]
          split <;> rfl
  | tcp o seq rest =>
      cases rest with
      | nil =>
          simp only [hpc] at he
          obtain ⟨rfl, rfl⟩ := Prod.mk.inj he
          simp only [State.legLog, hpc]
          rw [show List.map _ _ = ([] : List Log) from rfl, List.append_nil]
          exact hi.finish (by rw [hpc]; rfl)
      | cons server rest =>
          simp only [hpc] at he
          simp only [State.legLog, hpc]
          split at he
          · next c hstored =>
              obtain ⟨rfl, rfl⟩ := Prod.mk.inj he
              refine hgoto rfl ?_ (by rw [hpc]; rfl) fun _ _ => rfl
              rw [hpc]
              exact left_tcpTouch s.keyOf (hc.stored _ c hstored).2.1 o seq rest
          · obtain ⟨rfl, rfl⟩ := Prod.mk.inj he
            exact hgoto rfl (by rw [hpc]; rfl) (by rw [hpc]; rfl) fun _ _ => rfl
  | tcpCreate o seq server rest =>
      simp only [hpc] at he
      simp only [State.legLog, hpc]
      cases hstored : s.cl.tcpSessions (h.source, server) with
      | some c =>
          simp only [Client.createTcpSession, hstored] at he
          obtain ⟨rfl, rfl⟩ := Prod.mk.inj he
          simp only [reduceCtorEq, false_and, if_false]
          refine hgoto rfl ?_ (by rw [hpc]; rfl) fun _ _ => rfl
          rw [hpc]
          exact left_tcpTouch s.keyOf (hc.stored _ c hstored).2.1 o seq rest
      | none =>
          cases connected with
          | true =>
              simp only [Client.createTcpSession, hstored, if_true] at he
              obtain ⟨rfl, rfl⟩ := Prod.mk.inj he
              simp only [Bool.true_eq_false, and_false, if_false]
              refine hgoto rfl ?_ (by rw [hpc]; rfl) fun _ _ => rfl
              rw [hpc]
              exact left_tcpTouch s.keyOf (by simp [State.keyOf]) o seq rest
          | false =>
              simp only [Client.createTcpSession, hstored, Bool.false_eq_true, if_false] at he
              obtain ⟨rfl, rfl⟩ := Prod.mk.inj he
              simp only [and_self, if_true]
              exact hi.leg (by rw [hpc]; rfl) rfl rfl (by rw [hpc]; rfl)
                (.of_failure (by simp) (by simp))
  | tcpTouch o seq c rest =>
      simp only [hpc] at he
      obtain ⟨rfl, rfl⟩ := Prod.mk.inj he
      simp only [State.legLog, hpc]
      exact hgoto rfl (by rw [hpc]; rfl) (by rw [hpc]; rfl) fun _ _ => rfl
  | tcpSend o seq c rest =>
      simp only [hpc] at he
      simp only [State.legLog, hpc]
      cases hframe : s.cl.tcpFrameFor c o seq h.payload with
      | ok frame =>
          simp only [hframe] at he
          obtain ⟨rfl, rfl⟩ := Prod.mk.inj he
          refine hi.leg (by rw [hpc]; rfl) rfl rfl (by rw [hpc]; rfl)
            (.of_send ?_ fun _ _ => tcpFrameFor_fits hframe)
          rw [tcpFrameFor_eq hframe]
          split <;> rfl
      | error e =>
          simp only [hframe] at he
          obtain ⟨rfl, rfl⟩ := Prod.mk.inj he
          obtain ⟨hlarge, hlt⟩ := tcpFrameFor_tooLarge hframe (hu c)
          exact hi.leg (by rw [hpc]; rfl) rfl rfl (by rw [hpc]; rfl)
            (.of_failure (fun _ => hlt) (by rw [hlarge]; simp))

/-- The step lemma. -/
theorem step {e : Event} {obs : List Obs} (hi : LogFollows servers s log)
    (hcfg : s.cl.cfg.servers = servers) (hc : Connections s) (hu : Unmarked s)
    (hstep : GoClient.step s e = some (s', obs)) :
    LogFollows servers s' (log ++ s.datagramLog e obs) := by
  cases e with
  | sourceSends source payload =>
      simp only [GoClient.step, Option.ite_none_right_eq_some, Option.some.injEq,
        Prod.mk.injEq] at hstep
      obtain ⟨⟨-, hnone, -⟩, rfl, rfl⟩ := hstep
      unfold LogFollows at hi ⊢
      rw [hnone] at hi
      exact hi.receive source payload
  | listener now random connected sendOk =>
      simp only [GoClient.step] at hstep
      split at hstep
      · exact absurd hstep (by simp)
      · next h hs =>
          obtain ⟨-, hstep⟩ := Option.ite_none_left_eq_some.mp hstep
          simp only [State.datagramLog, hs]
          exact hi.listener hcfg hc hu hs (Option.some.inj hstep)
  | _ => exact hi.quiet (quiet_of_step hstep (by simp) (by simp))

end LogFollows

/-- The sections of `handlePacket` leave the configuration alone. -/
theorem cfg_of_stepListener {s s' : State} {h : Sending} {now : ℕ} {random : UInt32}
    {connected sendOk : Bool} {obs : List Obs}
    (he : stepListener s h now random connected sendOk = (s', obs)) : s'.cl.cfg = s.cl.cfg := by
  have hudp : (s.cl.createUdpSession h.source random now).1.cfg = s.cl.cfg := by
    unfold Client.createUdpSession
    split <;> rfl
  have htcp : ∀ key, (s.cl.createTcpSession key now connected).1.cfg = s.cl.cfg := by
    intro key
    unfold Client.createTcpSession
    split
    · rfl
    · split <;> rfl
  unfold stepListener at he
  dsimp only at he
  split at he
  · split at he <;> obtain ⟨rfl, -⟩ := Prod.mk.inj he <;> rfl
  · split at he <;> next hcreate =>
      obtain ⟨rfl, -⟩ := Prod.mk.inj he
      rw [hcreate] at hudp
      exact hudp
  · obtain ⟨rfl, -⟩ := Prod.mk.inj he
    rfl
  · obtain ⟨rfl, -⟩ := Prod.mk.inj he
    rfl
  · obtain ⟨rfl, -⟩ := Prod.mk.inj he
    rfl
  · obtain ⟨rfl, -⟩ := Prod.mk.inj he
    rfl
  · obtain ⟨rfl, -⟩ := Prod.mk.inj he
    rfl
  · split at he <;> obtain ⟨rfl, -⟩ := Prod.mk.inj he <;> rfl
  · next o seq server rest _ =>
      have hcfg := htcp (h.source, server)
      split at he <;> next hcreate =>
        obtain ⟨rfl, -⟩ := Prod.mk.inj he
        rw [hcreate] at hcfg
        exact hcfg
  · obtain ⟨rfl, -⟩ := Prod.mk.inj he
    rfl
  · split at he <;> obtain ⟨rfl, -⟩ := Prod.mk.inj he <;> rfl

/-- The configuration does not change. -/
theorem cfg_of_step {s s' : State} {e : Event} {obs : List Obs}
    (h : step s e = some (s', obs)) : s'.cl.cfg = s.cl.cfg := by
  cases e with
  | sourceSends source payload =>
      simp only [step, Option.ite_none_right_eq_some, Option.some.injEq, Prod.mk.injEq] at h
      obtain ⟨-, rfl, rfl⟩ := h
      rfl
  | listener now random connected sendOk =>
      simp only [step] at h
      split at h
      · exact absurd h (by simp)
      · obtain ⟨-, h⟩ := Option.ite_none_left_eq_some.mp h
        exact cfg_of_stepListener (Option.some.inj h)
  | _ => exact (quiet_of_step h (by simp) (by simp)).cfg

section Runs

variable {cfg : ClientConfig} {counter : UInt64} {es : List Event} {s : State} {log : List Log}

/-- The run lemma. -/
theorem logFollows_exec (h : (clientLog cfg counter).exec es = some (s, log)) :
    s.cl.cfg = cfg ∧ LogFollows cfg.servers s log := by
  refine (clientLog cfg counter).exec_induction
    (P := fun _ s log => s.cl.cfg = cfg ∧ LogFollows cfg.servers s log)
    ⟨rfl, Spreads.nil⟩ (fun es s log e s' o hrun hi hs => ?_) es s log h
  obtain ⟨obs, hstep, rfl⟩ := Machine.observe_step.mp hs
  obtain ⟨_, hrun'⟩ := Machine.exec_of_observe hrun
  exact ⟨(cfg_of_step hstep).trans hi.1,
    hi.2.step (by rw [hi.1]) (connections_exec hrun') (unmarked_exec hrun') hstep⟩

/-- **Every datagram leaves on every path**, from the Go client as from the Rust client: a
datagram is received, and then one packet, with one session id and one number, takes every UDP
sender and the source's connection to every TCP server, in the order of the configuration.  A path
is left out only if its server cannot be reached, the packet does not fit a frame or the send
fails, as it does once `Stop` has closed the socket, and nothing is sent otherwise; that a session is
marked as closed, which `sendTCPFrame` checks, never happens. -/
theorem go_datagrams_leave_on_every_path (h : (clientLog cfg counter).exec es = some (s, log)) :
    ∃ (done : List Passage) (last : Option Passage),
      log = (done ++ last.toList).flatMap Passage.log ∧
        (∀ p ∈ done ++ last.toList, p.Sound) ∧
        (∀ p ∈ done, p.legs.map Leg.path = pathsOf cfg.servers p.source) ∧
        (∀ p ∈ last, p.legs.map Leg.path <+: pathsOf cfg.servers p.source) ∧
        (s.sending = none → last = none) :=
  (logFollows_exec h).2.every_path

end Runs

/-- `Stop` closes the sockets of the senders while a datagram is on its way. -/
def stoppedOnTheWay : List Event :=
  sendDatagram demoAddr 20 11 ++
    (sendDatagram demoAddr 21 2 ++ [Event.stop, Event.stop, Event.stop] ++
      List.replicate 7 (Event.listener 21 0 true true))

/-- The first datagram leaves on both paths, the second only over TCP. -/
theorem go_datagrams_leave_on_every_path_stopped :
    ∃ s log, (clientLog demoConfig 0).exec stoppedOnTheWay = some (s, log) ∧
      s.sending = none ∧
      (log.filterMap fun | .leg l => some l.failure | _ => none) =
        [none, none, some .sendFailed, none] ∧
      ∃ (done : List Passage) (last : Option Passage),
        log = (done ++ last.toList).flatMap Passage.log ∧
          (∀ p ∈ done ++ last.toList, p.Sound) ∧
          (∀ p ∈ done, p.legs.map Leg.path = pathsOf demoConfig.servers p.source) ∧
          (∀ p ∈ last, p.legs.map Leg.path <+: pathsOf demoConfig.servers p.source) ∧
          (s.sending = none → last = none) := by
  have hview : ((clientLog demoConfig 0).exec stoppedOnTheWay).map
      (fun r => (r.1.sending, r.2.filterMap fun | .leg l => some l.failure | _ => none)) =
        some (none, [none, none, some .sendFailed, none]) := by decide
  obtain ⟨⟨s, log⟩, hrun, hv⟩ := Option.map_eq_some_iff.mp hview
  obtain ⟨hidle, hlegs⟩ := Prod.mk.inj hv
  exact ⟨s, log, hrun, hidle, hlegs, go_datagrams_leave_on_every_path hrun⟩

end Fproxy.GoClient
