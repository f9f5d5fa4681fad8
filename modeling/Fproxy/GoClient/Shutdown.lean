import Fproxy.GoClient.Connections
import Fproxy.Library.Work

/-!
# `Stop` of the Go client returns

`Stop` cancels the context, closes the sockets and waits for the goroutines.  Every read of a
server has a deadline, so every goroutine gets back to its context; the listener is woken up by the
end of its socket.  A datagram that is being sent may still open connections, each with a goroutine
of its own.  A `Dial` or a `Write` has no deadline; where it does not succeed it is taken to fail.

* `State.work` — the work left once the context is cancelled.
* `Stopping` — the invariant of the states after that.
* `spends_stopping` — every step but a tick of the sweeper spends work; a tick, which `select` may
  still prefer to the end of the context, adds that of a sweep.
* `goes_on` — unless everything has ended, somebody can move without help from outside.
* `stop_returns` — the result.
-/

namespace Fproxy.GoClient

open Fproxy.Config Fproxy.Runs
open Fproxy.Client (SessionObj SenderId SessionKey Responder Sending SendPc Obs)

/-! ### The work left -/

/-- The work of sending to so many TCP servers; each may need a connection and its goroutine. -/
def serversWork (n : ℕ) : ℕ := 1 + 9 * n

/-- The work of a datagram on its way to all servers. -/
def pathsWork (cfg : ClientConfig) : ℕ :=
  (addressesOf .udp cfg.servers).length + serversWork (addressesOf .tcp cfg.servers).length

/-- The work of the rest of a `handlePacket`. -/
def sendWork (cfg : ClientConfig) : SendPc → ℕ
  | .lookup => 5 + pathsWork cfg
  | .create => 4 + pathsWork cfg
  | .number _ => 3 + pathsWork cfg
  | .touch _ _ => 2 + pathsWork cfg
  | .udp _ _ senders => 1 + senders.length + serversWork (addressesOf .tcp cfg.servers).length
  | .tcp _ _ servers => serversWork servers.length
  | .tcpCreate _ _ _ servers => 8 + serversWork servers.length
  | .tcpTouch _ _ _ servers => 2 + serversWork servers.length
  | .tcpSend _ _ _ servers => 1 + serversWork servers.length

/-- The work of a loop that may be handed `busy` work by its read. -/
def LoopPc.work (busy : ℕ) : LoopPc → ℕ
  | .check => 1
  | .read => 2 + busy
  | .done => 0

def ReaderPc.work : ReaderPc → ℕ
  | .idle => 0
  | .check => 3
  | .readLength => 11
  | .readBody _ => 10
  | .cleanup => 2
  | .closing _ => 1
  | .done => 0

def ResponsePc.work : ResponsePc → ℕ
  | .lookupAddr => 6
  | .findSession _ => 5
  | .check _ _ => 4
  | .touch _ _ => 3
  | .touchTcp _ _ => 2
  | .forward _ _ => 1

/-- The work of a response in hand, if any. -/
def responseWork (r : Option Response) : ℕ := r.elim 0 fun r => r.pc.work

def SweepPc.work (keys : ℕ) : SweepPc → ℕ
  | .waiting => 1
  | .udp _ todo => todo.length + keys + 4
  | .between _ => keys + 3
  | .tcp _ todo => todo.length + 2
  | .done => 0

def StopPc.work : StopPc → ℕ
  | .running => 4
  | .listener => 3
  | .senders => 2
  | .sessions => 1
  | .waiting => 0

/-- The number of UDP senders. -/
def Client.udpCount (cl : Client) : ℕ := (addressesOf .udp cl.cfg.servers).length

theorem Client.udpCount_eq {cl cl' : Client} (h : cl'.cfg = cl.cfg) :
    cl'.udpCount = cl.udpCount := by
  rw [udpCount, h]
  rfl

/-- The work of the `handleUDPServerResponse` of a sender. -/
def State.receiverWork (s : State) (i : SenderId) : ℕ :=
  (s.receivers i).work 6 + responseWork (s.responses (.udp i))

/-- The work of the `handleTCPServerResponse` of a connection. -/
def State.readerWork (s : State) (c : ConnId) : ℕ :=
  (s.readers c).pc.work + responseWork (s.responses (.tcp c))

/-- The work left for all goroutines and `Stop`. -/
def State.work (s : State) : ℕ :=
  s.listener.work (5 + pathsWork s.cl.cfg) +
    s.sending.elim 0 (fun h => sendWork s.cl.cfg h.pc) +
    ∑ i ∈ Finset.range s.cl.udpCount, s.receiverWork i +
    ∑ c ∈ Finset.range s.cl.nextConn, s.readerWork c +
    s.sweep.work s.cl.keys.length + s.stop.work

/-! ### The invariant -/

/-- What holds of the goroutines and `Stop` along every run. -/
structure Started (s : State) : Prop where
  connections : Connections s
  receiver : ∀ i, s.receivers i ≠ .check → i < s.cl.udpCount
  overUdp : ∀ i r, s.responses (.udp i) = some r → i < s.cl.udpCount
  overTcp : ∀ c r, s.responses (.tcp c) = some r → c < s.cl.nextConn
  cancelled : s.stop ≠ .running → s.ctxDone = true
  closed : s.stop ≠ .running → s.stop ≠ .listener → s.listenerClosed = true

/-- What a section of `handlePacket` does, as far as the goroutines are concerned. -/
inductive Sent (s : State) : State → Prop
  /-- It goes on, or ends. -/
  | on {cl : Client} {pc : Option Sending} :
      cl.cfg = s.cl.cfg → cl.nextConn = s.cl.nextConn → cl.keys = s.cl.keys →
      pc.elim 0 (fun h => sendWork s.cl.cfg h.pc) <
        s.sending.elim 0 (fun h => sendWork s.cl.cfg h.pc) →
      Sent s { s with cl := cl, sending := pc }
  /-- It opens a connection, which gets a goroutine. -/
  | opened {cl : Client} {h : Sending} {key key' : SessionKey} :
      cl.cfg = s.cl.cfg → cl.nextConn = s.cl.nextConn + 1 → cl.keys = s.cl.keys ++ [key'] →
      sendWork s.cl.cfg h.pc + 4 < s.sending.elim 0 (fun h => sendWork s.cl.cfg h.pc) →
      Sent s { s with
        cl := cl
        sending := some h
        readers := Function.update s.readers s.cl.nextConn ⟨key, .check⟩ }

theorem sent_of_stepListener {s s' : State} {h : Sending} {now : ℕ} {random : UInt32}
    {b b' : Bool} {obs : List Obs} (ht : s.sending = some h)
    (hs : stepListener s h now random b b' = (s', obs)) : Sent s s' := by
  have hgoto : ∀ {cl : Client} {pc : SendPc}, cl.cfg = s.cl.cfg → cl.nextConn = s.cl.nextConn →
      cl.keys = s.cl.keys → sendWork s.cl.cfg pc < sendWork s.cl.cfg h.pc →
      Sent s { s with cl := cl, sending := some { h with pc := pc } } := by
    intro cl pc hcfg hnext hkeys hlt
    refine .on hcfg hnext hkeys ?_
    rw [ht]
    exact hlt
  unfold stepListener at hs
  dsimp only at hs
  split at hs
  · next hpc =>
      split at hs <;> obtain ⟨rfl, -⟩ := Prod.mk.inj hs <;>
        exact hgoto rfl rfl rfl (by simp [hpc, sendWork])
  · next hpc =>
      cases hsess : s.cl.udpSessions h.source with
      | some o =>
          simp only [Client.createUdpSession, hsess] at hs
          obtain ⟨rfl, -⟩ := Prod.mk.inj hs
          exact hgoto rfl rfl rfl (by simp [hpc, sendWork])
      | none =>
          simp only [Client.createUdpSession, hsess] at hs
          obtain ⟨rfl, -⟩ := Prod.mk.inj hs
          exact hgoto rfl rfl rfl (by simp [hpc, sendWork])
  · next hpc =>
      obtain ⟨rfl, -⟩ := Prod.mk.inj hs
      exact hgoto rfl rfl rfl (by simp [hpc, sendWork])
  · next hpc =>
      obtain ⟨rfl, -⟩ := Prod.mk.inj hs
      refine hgoto rfl rfl rfl ?_
      simp only [hpc, sendWork, pathsWork, List.length_range]
      omega
  · next hpc =>
      obtain ⟨rfl, -⟩ := Prod.mk.inj hs
      exact hgoto rfl rfl rfl (by simp [hpc, sendWork])
  · next hpc =>
      obtain ⟨rfl, -⟩ := Prod.mk.inj hs
      exact hgoto rfl rfl rfl (by simp [hpc, sendWork])
  · next hpc =>
      obtain ⟨rfl, -⟩ := Prod.mk.inj hs
      refine .on rfl rfl rfl ?_
      rw [ht]
      simp [hpc, sendWork, serversWork]
  · next hpc =>
      split at hs <;> obtain ⟨rfl, -⟩ := Prod.mk.inj hs <;>
      · refine hgoto rfl rfl rfl ?_
        simp only [hpc, sendWork, serversWork, List.length_cons]
        omega
  · next o seq server servers hpc =>
      cases hsess : s.cl.tcpSessions (h.source, server) with
      | some c =>
          simp only [Client.createTcpSession, hsess] at hs
          obtain ⟨rfl, -⟩ := Prod.mk.inj hs
          exact hgoto rfl rfl rfl (by simp [hpc, sendWork])
      | none =>
          cases b with
          | false =>
              simp only [Client.createTcpSession, hsess] at hs
              obtain ⟨rfl, -⟩ := Prod.mk.inj hs
              exact hgoto rfl rfl rfl (by simp [hpc, sendWork])
          | true =>
              simp only [Client.createTcpSession, hsess, if_true] at hs
              obtain ⟨rfl, -⟩ := Prod.mk.inj hs
              refine .opened rfl rfl rfl ?_
              rw [ht]
              simp only [hpc, sendWork, Option.elim_some]
              omega
  · next hpc =>
      obtain ⟨rfl, -⟩ := Prod.mk.inj hs
      exact hgoto rfl rfl rfl (by simp [hpc, sendWork])
  · next hpc =>
      split at hs <;> obtain ⟨rfl, -⟩ := Prod.mk.inj hs <;>
        exact hgoto rfl rfl rfl (by simp [hpc, sendWork])

/-- A section of the handling of a response spends work on it. -/
theorem responseWork_of_stepResponder {s s' : State} {t : Responder} {r : Response} {now : ℕ}
    {order : List SocketAddr} {b : Bool} {obs : List Obs}
    (hs : stepResponder s t r now order b = (s', obs)) :
    ∃ cl r', s' = { s with cl := cl }.setResponse t r' ∧ cl.cfg = s.cl.cfg ∧
      cl.nextConn = s.cl.nextConn ∧ cl.keys = s.cl.keys ∧ responseWork r' < r.pc.work := by
  unfold stepResponder at hs
  dsimp only at hs
  split at hs
  · next hpc =>
      split at hs <;> obtain ⟨rfl, -⟩ := Prod.mk.inj hs <;>
        exact ⟨_, _, rfl, rfl, rfl, rfl, by simp [hpc, responseWork, ResponsePc.work]⟩
  · next hpc =>
      split at hs <;> obtain ⟨rfl, -⟩ := Prod.mk.inj hs <;>
        exact ⟨_, _, rfl, rfl, rfl, rfl, by simp [hpc, responseWork, ResponsePc.work]⟩
  · next source o hpc =>
      have hcl : ∀ {dup : Bool} {cl : Client}, s.cl.checkResponse o r.seq = (dup, cl) →
          cl.cfg = s.cl.cfg ∧ cl.nextConn = s.cl.nextConn ∧ cl.keys = s.cl.keys := by
        intro dup cl hd
        have he : cl = (s.cl.checkResponse o r.seq).2 := by rw [hd]
        rw [he]
        exact ⟨rfl, rfl, rfl⟩
      split at hs <;> next hd =>
        obtain ⟨rfl, -⟩ := Prod.mk.inj hs
        obtain ⟨hcfg, hnext, hkeys⟩ := hcl hd
        exact ⟨_, _, rfl, hcfg, hnext, hkeys, by simp [hpc, responseWork, ResponsePc.work]⟩
  · next hpc =>
      obtain ⟨rfl, -⟩ := Prod.mk.inj hs
      refine ⟨_, _, rfl, rfl, rfl, rfl, ?_⟩
      cases t <;> simp [hpc, responseWork, afterTouch, ResponsePc.work]
  · next hpc =>
      cases t with
      | udp i =>
          obtain ⟨rfl, -⟩ := Prod.mk.inj hs
          exact ⟨_, _, rfl, rfl, rfl, rfl, by simp [hpc, responseWork, ResponsePc.work]⟩
      | tcp c =>
          obtain ⟨rfl, -⟩ := Prod.mk.inj hs
          obtain ⟨hcfg, hnext, hkeys, -⟩ := s.cl.touchStored_tables (s.readers c).key now
          exact ⟨_, _, rfl, hcfg, hnext, hkeys, by simp [hpc, responseWork, ResponsePc.work]⟩
  · next hpc =>
      obtain ⟨rfl, -⟩ := Prod.mk.inj hs
      exact ⟨_, _, rfl, rfl, rfl, rfl, by simp [hpc, responseWork, ResponsePc.work]⟩

/-! ### What a step does to the goroutines -/

/-- One goroutine moves, or `Stop`; once the context is cancelled, that spends work. -/
inductive Turn (s s' : State) (e : Event) : Prop
  | listener {pc : LoopPc} {h : Option Sending} :
      s' = { s with listener := pc, sending := h } →
      (s.ctxDone = true →
        pc.work (5 + pathsWork s.cl.cfg) + h.elim 0 (fun h => sendWork s.cl.cfg h.pc) <
          s.listener.work (5 + pathsWork s.cl.cfg) +
            s.sending.elim 0 (fun h => sendWork s.cl.cfg h.pc)) →
      Turn s s' e
  | sending : Sent s s' → Turn s s' e
  | receiver {i : SenderId} {pc : LoopPc} {r : Option Response} {cl : Client} :
      i < s.cl.udpCount → cl.cfg = s.cl.cfg → cl.nextConn = s.cl.nextConn →
      cl.keys = s.cl.keys →
      s' = { s with
        cl := cl
        receivers := Function.update s.receivers i pc
        responses := Function.update s.responses (.udp i) r } →
      (s.ctxDone = true → pc.work 6 + responseWork r < s.receiverWork i) → Turn s s' e
  | reader {c : ConnId} {pc : ReaderPc} {r : Option Response} {cl : Client} :
      c < s.cl.nextConn → cl.cfg = s.cl.cfg → cl.nextConn = s.cl.nextConn →
      cl.keys.length ≤ s.cl.keys.length →
      s' = { s with
        cl := cl
        readers := Function.update s.readers c { s.readers c with pc := pc }
        responses := Function.update s.responses (.tcp c) r } →
      (s.ctxDone = true → pc.work + responseWork r < s.readerWork c) → Turn s s' e
  | sweep {cl : Client} {sw : SweepPc} :
      cl.cfg = s.cl.cfg → cl.nextConn = s.cl.nextConn → s' = { s with cl := cl, sweep := sw } →
      ((∀ now, e ≠ .tick now) → sw.work cl.keys.length < s.sweep.work s.cl.keys.length) →
      Turn s s' e
  | stop : stepStop s = some s' → Turn s s' e

namespace Started

variable {s s' : State}

theorem reader_lt (hi : Started s) {c : ConnId} (h : (s.readers c).pc ≠ .idle) :
    c < s.cl.nextConn :=
  Nat.lt_of_not_le fun hle => h ((hi.connections.spawned c).mpr hle)

/-- A packet that was read for a receiver. -/
theorem turn_datagram (hi : Started s) {e : Event} {i : SenderId} {data : List UInt8}
    (hpc : s.receivers i = .read) (hidle : s.responses (.udp i) = none) :
    Turn s (received { s with receivers := Function.update s.receivers i .check } (.udp i) data)
      e := by
  have hlt := hi.receiver i (by rw [hpc]; simp)
  have hsame : Function.update s.responses (.udp i) none = s.responses := by
    rw [Function.update_eq_self_iff, hidle]
  unfold received
  split
  · refine @Turn.receiver _ _ _ i .check none s.cl hlt rfl rfl rfl (by rw [hsame]) fun _ => ?_
    simp [State.receiverWork, hpc, hidle, LoopPc.work, responseWork]
  · refine .receiver hlt rfl rfl rfl rfl fun _ => ?_
    simp [State.receiverWork, hpc, hidle, LoopPc.work, responseWork, ResponsePc.work]

/-- A packet that was read on a connection. -/
theorem turn_bodyRead (hi : Started s) {e : Event} {c : ConnId} {data : List UInt8}
    (hpc : (s.readers c).pc = .readBody data.length) (hidle : s.responses (.tcp c) = none) :
    Turn s (received (s.setReader c .check) (.tcp c) data) e := by
  have hlt := hi.reader_lt (c := c) (by rw [hpc]; simp)
  have hsame : Function.update s.responses (.tcp c) none = s.responses := by
    rw [Function.update_eq_self_iff, hidle]
  unfold received
  split
  · refine @Turn.reader _ _ _ c .check none s.cl hlt rfl rfl (le_refl _)
      (by rw [hsame]; rfl) fun _ => ?_
    simp [State.readerWork, hpc, hidle, ReaderPc.work, responseWork]
  · refine .reader hlt rfl rfl (le_refl _) rfl fun _ => ?_
    simp [State.readerWork, hpc, hidle, ReaderPc.work, responseWork, ResponsePc.work]

/-- A receiver moves, without a response. -/
theorem turn_setReceiver {e : Event} {i : SenderId} {pc : LoopPc} (hi : i < s.cl.udpCount)
    (hlt : s.ctxDone = true → pc.work 6 < (s.receivers i).work 6) :
    Turn s { s with receivers := Function.update s.receivers i pc } e := by
  refine @Turn.receiver _ _ _ i pc (s.responses (.udp i)) s.cl hi rfl rfl rfl ?_ fun h => ?_
  · rw [Function.update_eq_self]
  · have hspend := hlt h
    rw [State.receiverWork]
    omega

/-- A goroutine of a connection moves, without a response. -/
theorem turn_setReader (hi : Started s) (cl : Client) {e : Event} {c : ConnId} {pc pc' : ReaderPc}
    (hpc : (s.readers c).pc = pc) (hidle : pc ≠ .idle) (hcfg : cl.cfg = s.cl.cfg)
    (hnext : cl.nextConn = s.cl.nextConn) (hkeys : cl.keys.length ≤ s.cl.keys.length)
    (hlt : s.ctxDone = true → pc'.work < pc.work) :
    Turn s ({ s with cl := cl }.setReader c pc') e := by
  have hc := hi.reader_lt (c := c) (hpc ▸ hidle)
  refine @Turn.reader _ _ _ c pc' (s.responses (.tcp c)) cl hc hcfg hnext hkeys ?_ fun h => ?_
  · rw [Function.update_eq_self]
    rfl
  · have hspend := hlt h
    rw [State.readerWork, hpc]
    omega

/-- **Inversion.** -/
theorem turn_of_step (hi : Started s) {e : Event} {obs : List Obs}
    (h : step s e = some (s', obs)) : Turn s s' e := by
  cases e with
  | listenerSelect =>
      obtain ⟨hc, h⟩ := Option.ite_none_right_eq_some.mp h
      obtain ⟨rfl, -⟩ := Prod.mk.inj (Option.some.inj h)
      refine .listener rfl fun hd => ?_
      simp [hc.1, hc.2, hd, LoopPc.work]
  | sourceSends source payload =>
      obtain ⟨hc, h⟩ := Option.ite_none_right_eq_some.mp h
      obtain ⟨rfl, -⟩ := Prod.mk.inj (Option.some.inj h)
      refine .listener rfl fun hd => ?_
      simp only [hc.1, hc.2.1, LoopPc.work, sendWork, Option.elim_some, Option.elim_none]
      omega
  | listenerFails =>
      obtain ⟨hc, h⟩ := Option.ite_none_right_eq_some.mp h
      obtain ⟨rfl, -⟩ := Prod.mk.inj (Option.some.inj h)
      refine @Turn.listener _ _ _ _ s.sending rfl fun hd => ?_
      simp [hc, hd, LoopPc.work]
  | listener now random b b' =>
      simp only [step] at h
      split at h
      · exact absurd h (by simp)
      · next hd ht =>
          obtain ⟨-, h⟩ := Option.ite_none_left_eq_some.mp h
          exact .sending (sent_of_stepListener ht (Option.some.inj h))
  | receiverSelect i =>
      obtain ⟨hc, h⟩ := Option.ite_none_right_eq_some.mp h
      obtain ⟨rfl, -⟩ := Prod.mk.inj (Option.some.inj h)
      exact turn_setReceiver hc.1 fun hd => by simp [hc.2.1, hd, LoopPc.work]
  | datagram i data =>
      obtain ⟨hc, h⟩ := Option.ite_none_right_eq_some.mp h
      obtain ⟨rfl, -⟩ := Prod.mk.inj (Option.some.inj h)
      exact hi.turn_datagram hc.1 hc.2.1
  | receiverFails i timeout =>
      obtain ⟨hc, h⟩ := Option.ite_none_right_eq_some.mp h
      obtain ⟨rfl, -⟩ := Prod.mk.inj (Option.some.inj h)
      refine turn_setReceiver (hi.receiver i (by rw [hc]; simp)) fun hd => ?_
      cases timeout <;> simp [hc, hd, LoopPc.work]
  | readerSelect c =>
      obtain ⟨hc, h⟩ := Option.ite_none_right_eq_some.mp h
      obtain ⟨rfl, -⟩ := Prod.mk.inj (Option.some.inj h)
      refine hi.turn_setReader s.cl hc.1 (by simp) rfl rfl (le_refl _) fun hd => ?_
      simp [State.readerDone, hd, ReaderPc.work]
  | lengthRead c length =>
      obtain ⟨hc, h⟩ := Option.ite_none_right_eq_some.mp h
      obtain ⟨rfl, -⟩ := Prod.mk.inj (Option.some.inj h)
      refine hi.turn_setReader s.cl hc.1 (by simp) rfl rfl (le_refl _) fun _ => ?_
      split <;> simp [ReaderPc.work]
  | bodyRead c data =>
      obtain ⟨hc, h⟩ := Option.ite_none_right_eq_some.mp h
      obtain ⟨rfl, -⟩ := Prod.mk.inj (Option.some.inj h)
      exact hi.turn_bodyRead hc.1 hc.2.1
  | readerFails c timeout =>
      simp only [step] at h
      split at h
      · next hpc =>
          obtain ⟨rfl, -⟩ := Prod.mk.inj (Option.some.inj h)
          refine hi.turn_setReader s.cl hpc (by simp) rfl rfl (le_refl _) fun _ => ?_
          split <;> simp [ReaderPc.work]
      · next hpc =>
          obtain ⟨rfl, -⟩ := Prod.mk.inj (Option.some.inj h)
          exact hi.turn_setReader s.cl hpc (by simp) rfl rfl (le_refl _)
            fun _ => by simp [ReaderPc.work]
      · exact absurd h (by simp)
  | cleanup c =>
      simp only [step] at h
      split at h
      · next hpc =>
          obtain ⟨-, h⟩ := Option.ite_none_left_eq_some.mp h
          obtain ⟨rfl, -⟩ := Prod.mk.inj (Option.some.inj h)
          exact hi.turn_setReader _ hpc (by simp) rfl rfl (List.length_filter_le _ _)
            fun _ => by simp [ReaderPc.work]
      · next hpc =>
          obtain ⟨rfl, -⟩ := Prod.mk.inj (Option.some.inj h)
          exact hi.turn_setReader s.cl hpc (by simp) rfl rfl (le_refl _)
            fun _ => by simp [ReaderPc.work]
      · next hpc =>
          obtain ⟨rfl, -⟩ := Prod.mk.inj (Option.some.inj h)
          exact hi.turn_setReader _ hpc (by simp) rfl rfl (le_refl _)
            fun _ => by simp [ReaderPc.work]
      · exact absurd h (by simp)
  | responder t now order b =>
      simp only [step] at h
      split at h
      · exact absurd h (by simp)
      · next r ht =>
          obtain ⟨-, h⟩ := Option.ite_none_left_eq_some.mp h
          obtain ⟨cl, r', rfl, hcfg, hnext, hkeys, hlt⟩ :=
            responseWork_of_stepResponder (Option.some.inj h)
          cases t with
          | udp i =>
              refine @Turn.receiver _ _ _ i (s.receivers i) r' cl (hi.overUdp i r ht) hcfg hnext
                hkeys ?_ fun _ => ?_
              · rw [Function.update_eq_self]
                rfl
              · simp only [State.receiverWork, ht, responseWork, Option.elim_some] at hlt ⊢
                omega
          | tcp c =>
              refine @Turn.reader _ _ _ c (s.readers c).pc r' cl (hi.overTcp c r ht) hcfg hnext
                (by rw [hkeys]) ?_ fun _ => ?_
              · rw [Function.update_eq_self]
                rfl
              · simp only [State.readerWork, ht, responseWork, Option.elim_some] at hlt ⊢
                omega
  | tick now =>
      obtain ⟨-, h⟩ := Option.ite_none_right_eq_some.mp h
      obtain ⟨rfl, -⟩ := Prod.mk.inj (Option.some.inj h)
      exact @Turn.sweep _ _ _ s.cl _ rfl rfl rfl fun hne => absurd rfl (hne now)
  | sweepSource source =>
      simp only [step] at h
      split at h
      · next now todo hsw =>
          obtain ⟨hm, h⟩ := Option.ite_none_right_eq_some.mp h
          obtain ⟨rfl, -⟩ := Prod.mk.inj (Option.some.inj h)
          have heq := expireUdp_eq s.cl now source
          refine .sweep (by rw [heq]) (by rw [heq]) rfl fun _ => ?_
          have hkeys : (s.cl.expireUdp now source).keys = s.cl.keys := by rw [heq]
          have hlen := List.length_erase_of_mem hm
          have hpos := List.length_pos_of_mem hm
          rw [hkeys, hsw]
          simp only [SweepPc.work]
          omega
      · exact absurd h (by simp)
  | sweepKey key =>
      simp only [step] at h
      split at h
      · next now todo hsw =>
          obtain ⟨hm, h⟩ := Option.ite_none_right_eq_some.mp h
          obtain ⟨rfl, -⟩ := Prod.mk.inj (Option.some.inj h)
          rw [List.contains_iff_mem] at hm
          obtain ⟨hcfg, hnext⟩ := s.cl.expireTcp_cfg now key
          refine .sweep hcfg hnext rfl fun _ => ?_
          have hlen := List.length_erase_of_mem hm
          have hpos := List.length_pos_of_mem hm
          rw [hsw]
          simp only [SweepPc.work]
          omega
      · exact absurd h (by simp)
  | sweepOn =>
      simp only [step] at h
      split at h
      · next hsw =>
          obtain ⟨rfl, -⟩ := Prod.mk.inj (Option.some.inj h)
          exact @Turn.sweep _ _ _ s.cl _ rfl rfl rfl fun _ => by simp [hsw, SweepPc.work]
      · next hsw =>
          obtain ⟨rfl, -⟩ := Prod.mk.inj (Option.some.inj h)
          exact @Turn.sweep _ _ _ s.cl _ rfl rfl rfl fun _ => by simp [hsw, SweepPc.work]
      · next hsw =>
          obtain ⟨rfl, -⟩ := Prod.mk.inj (Option.some.inj h)
          exact @Turn.sweep _ _ _ s.cl _ rfl rfl rfl fun _ => by simp [hsw, SweepPc.work]
      · exact absurd h (by simp)
  | sweeperEnds =>
      obtain ⟨hc, h⟩ := Option.ite_none_right_eq_some.mp h
      obtain ⟨rfl, -⟩ := Prod.mk.inj (Option.some.inj h)
      exact @Turn.sweep _ _ _ s.cl _ rfl rfl rfl fun _ => by simp [hc.1, SweepPc.work]
  | stop =>
      obtain ⟨s₁, hs, he⟩ := Option.map_eq_some_iff.mp h
      obtain ⟨rfl, -⟩ := Prod.mk.inj he
      exact .stop hs

/-- What the next step of `Stop` does to the goroutines: nothing. -/
structure Stops (s s' : State) : Prop where
  cfg : s'.cl.cfg = s.cl.cfg
  nextConn : s'.cl.nextConn = s.cl.nextConn
  keys : s'.cl.keys = s.cl.keys
  listener : s'.listener = s.listener
  sending : s'.sending = s.sending
  receivers : s'.receivers = s.receivers
  readers : s'.readers = s.readers
  responses : s'.responses = s.responses
  sweep : s'.sweep = s.sweep
  spends : s'.stop.work < s.stop.work
  cancelled : s'.ctxDone = true
  closed : s'.stop ≠ .listener → s'.listenerClosed = true

theorem stops (hi : Started s) (h : stepStop s = some s') : Stops s s' := by
  unfold stepStop at h
  split at h
  · next hs =>
      obtain rfl := Option.some.inj h
      refine ⟨rfl, rfl, rfl, rfl, rfl, rfl, rfl, rfl, rfl, ?_, rfl, fun h => absurd rfl h⟩
      simp [hs, StopPc.work]
  · next hs =>
      obtain rfl := Option.some.inj h
      have hctx := hi.cancelled (by simp [hs])
      refine ⟨rfl, rfl, rfl, rfl, rfl, rfl, rfl, rfl, rfl, ?_, hctx, fun _ => rfl⟩
      simp [hs, StopPc.work]
  · next hs =>
      obtain ⟨-, h⟩ := Option.ite_none_left_eq_some.mp h
      obtain rfl := Option.some.inj h
      have hctx := hi.cancelled (by simp [hs])
      have hclosed := hi.closed (by simp [hs]) (by simp [hs])
      refine ⟨rfl, rfl, rfl, rfl, rfl, rfl, rfl, rfl, rfl, ?_, hctx, fun _ => hclosed⟩
      simp [hs, StopPc.work]
  · next hs =>
      obtain ⟨-, h⟩ := Option.ite_none_left_eq_some.mp h
      obtain rfl := Option.some.inj h
      have hctx := hi.cancelled (by simp [hs])
      have hclosed := hi.closed (by simp [hs]) (by simp [hs])
      refine ⟨rfl, rfl, rfl, rfl, rfl, rfl, rfl, rfl, rfl, ?_, hctx, fun _ => hclosed⟩
      simp [hs, StopPc.work]
  · exact absurd h (by simp)

/-- The invariant after a step. -/
theorem step_started {e : Event} {obs : List Obs} (hi : Started s)
    (h : step s e = some (s', obs)) : Started s' := by
  have hconn := hi.connections.act (act_of_step h)
  cases hi.turn_of_step h with
  | listener he _ =>
      subst he
      exact ⟨hconn, hi.receiver, hi.overUdp, hi.overTcp, hi.cancelled, hi.closed⟩
  | sending hsent =>
      cases hsent with
      | on hcfg hnext _ _ =>
          have hcount := Client.udpCount_eq hcfg
          exact ⟨hconn, fun i hr => hcount.symm ▸ hi.receiver i hr,
            fun i r hr => hcount.symm ▸ hi.overUdp i r hr,
            fun c r hr => hnext.symm ▸ hi.overTcp c r hr, hi.cancelled, hi.closed⟩
      | opened hcfg hnext _ _ =>
          have hcount := Client.udpCount_eq hcfg
          exact ⟨hconn, fun i hr => hcount.symm ▸ hi.receiver i hr,
            fun i r hr => hcount.symm ▸ hi.overUdp i r hr,
            fun c r hr => hnext.symm ▸ Nat.lt_succ_of_lt (hi.overTcp c r hr), hi.cancelled,
            hi.closed⟩
  | @receiver i pc r cl hlt hcfg hnext _ he _ =>
      subst he
      have hcount := Client.udpCount_eq hcfg
      refine ⟨hconn, fun j hj => ?_, fun j r' hj => ?_, fun c r' hc => ?_, hi.cancelled, hi.closed⟩
      · show j < cl.udpCount
        by_cases hji : j = i
        · rw [hji, hcount]
          exact hlt
        · rw [hcount]
          exact hi.receiver j (by simpa [Function.update_of_ne hji] using hj)
      · show j < cl.udpCount
        by_cases hji : j = i
        · rw [hji, hcount]
          exact hlt
        · rw [hcount]
          exact hi.overUdp j r' (by simpa [hji] using hj)
      · show c < cl.nextConn
        rw [hnext]
        exact hi.overTcp c r' (by simpa using hc)
  | @reader c pc r cl hlt hcfg hnext _ he _ =>
      subst he
      have hcount := Client.udpCount_eq hcfg
      refine ⟨hconn, fun j hj => hcount.symm ▸ hi.receiver j hj, fun j r' hj => ?_,
        fun c' r' hc => ?_, hi.cancelled, hi.closed⟩
      · show j < cl.udpCount
        rw [hcount]
        exact hi.overUdp j r' (by simpa using hj)
      · show c' < cl.nextConn
        rw [hnext]
        by_cases he : c' = c
        · rw [he]
          exact hlt
        · exact hi.overTcp c' r' (by simpa [he] using hc)
  | @sweep cl sw hcfg hnext he _ =>
      subst he
      have hcount := Client.udpCount_eq hcfg
      exact ⟨hconn, fun j hj => hcount.symm ▸ hi.receiver j hj,
        fun j r' hj => hcount.symm ▸ hi.overUdp j r' hj,
        fun c r' hc => hnext.symm ▸ hi.overTcp c r' hc, hi.cancelled, hi.closed⟩
  | stop hs =>
      have hst := hi.stops hs
      have hcount := Client.udpCount_eq hst.cfg
      refine ⟨hconn, fun j hj => ?_, fun j r' hj => ?_, fun c r' hc => ?_, fun _ => hst.cancelled,
        fun _ h => hst.closed h⟩
      · rw [hcount]
        exact hi.receiver j (hst.receivers ▸ hj)
      · rw [hcount]
        exact hi.overUdp j r' (hst.responses ▸ hj)
      · rw [hst.nextConn]
        exact hi.overTcp c r' (hst.responses ▸ hc)

end Started

theorem started_exec {cfg : ClientConfig} {counter : UInt64} {es : List Event} {s : State}
    {tr : List Obs} (hrun : (machine cfg counter).exec es = some (s, tr)) : Started s :=
  Machine.invariant (I := fun s _ => Started s) _
    ⟨connections_exec (machine cfg counter).exec_nil, fun _ h => absurd rfl h,
      fun _ _ h => absurd h (by simp [machine]), fun _ _ h => absurd h (by simp [machine]),
      fun h => absurd rfl h, fun h => absurd rfl h⟩
    (fun _ _ _ _ _ hi hs => hi.step_started hs) hrun

/-! ### Every step spends work -/

/-- The context is cancelled. -/
structure Stopping (s : State) : Prop where
  started : Started s
  ctxDone : s.ctxDone = true

section Spending

variable {s s' : State} {e : Event}

/-- A goroutine of a connection has been started. -/
theorem sum_readerWork_opened (hi : Started s) (key : SessionKey) {cl : Client}
    {h : Option Sending} :
    ∑ c ∈ Finset.range (s.cl.nextConn + 1),
      ({ s with
          cl := cl
          sending := h
          readers := Function.update s.readers s.cl.nextConn ⟨key, .check⟩ } : State).readerWork c =
      ∑ c ∈ Finset.range s.cl.nextConn, s.readerWork c + 3 := by
  have hidle : s.responses (.tcp s.cl.nextConn) = none := by
    cases hr : s.responses (.tcp s.cl.nextConn) with
    | none => rfl
    | some r => exact absurd (hi.overTcp _ r hr) (Nat.lt_irrefl _)
  rw [Finset.sum_range_succ]
  congr 1
  · refine Finset.sum_congr rfl fun c hc => ?_
    have hne : c ≠ s.cl.nextConn := Nat.ne_of_lt (Finset.mem_range.mp hc)
    simp only [State.readerWork, Function.update_of_ne hne]
  · simp [State.readerWork, hidle, ReaderPc.work, responseWork]

theorem Sent.work_lt (hi : Started s) (h : Sent s s') : s'.work < s.work := by
  cases h with
  | @on cl pc hcfg hnext hkeys hlt =>
      have hrecv : ∀ i, ({ s with cl := cl, sending := pc } : State).receiverWork i =
          s.receiverWork i := fun _ => rfl
      have hread : ∀ c, ({ s with cl := cl, sending := pc } : State).readerWork c =
          s.readerWork c := fun _ => rfl
      simp only [State.work, Client.udpCount_eq hcfg, hcfg, hnext, hkeys, hrecv, hread]
      omega
  | @opened cl h key key' hcfg hnext hkeys hlt =>
      have hrecv : ∀ i, ({ s with
          cl := cl
          sending := some h
          readers := Function.update s.readers s.cl.nextConn ⟨key, .check⟩ } : State).receiverWork i
            = s.receiverWork i := fun _ => rfl
      have hsweep : s.sweep.work (s.cl.keys.length + 1) ≤ s.sweep.work s.cl.keys.length + 1 := by
        cases s.sweep <;> simp only [SweepPc.work] <;> omega
      simp only [State.work, Client.udpCount_eq hcfg, hcfg, hnext, hkeys, hrecv,
        sum_readerWork_opened hi, List.length_append, List.length_singleton, Option.elim_some]
      omega

/-- **A step spends work**, once the context is cancelled, unless it is a tick. -/
theorem Turn.work_lt (hi : Stopping s) (h : Turn s s' e) (ht : ∀ now, e ≠ .tick now) :
    s'.work < s.work := by
  have hctx := hi.ctxDone
  cases h with
  | @listener pc h he hlt =>
      subst he
      have hlt := hlt hctx
      have hrecv : ∀ i, ({ s with listener := pc, sending := h } : State).receiverWork i =
          s.receiverWork i := fun _ => rfl
      have hread : ∀ c, ({ s with listener := pc, sending := h } : State).readerWork c =
          s.readerWork c := fun _ => rfl
      simp only [State.work, hrecv, hread]
      omega
  | sending hsent => exact hsent.work_lt hi.started
  | @receiver i pc r cl hi' hcfg hnext hkeys he hlt =>
      have hsum : ∑ j ∈ Finset.range s.cl.udpCount, s'.receiverWork j <
          ∑ j ∈ Finset.range s.cl.udpCount, s.receiverWork j := by
        refine Machine.sum_range_lt hi' ?_ fun j hj => ?_
        · rw [he]
          simpa [State.receiverWork] using hlt hctx
        · rw [he]
          simp [State.receiverWork, hj]
      have hread : ∀ c, s'.readerWork c = s.readerWork c := by
        intro c
        rw [he]
        simp [State.readerWork]
      have hcl : s'.cl = cl := by rw [he]
      have hrest : s'.listener = s.listener ∧ s'.sending = s.sending ∧ s'.sweep = s.sweep ∧
          s'.stop = s.stop := by rw [he]; exact ⟨rfl, rfl, rfl, rfl⟩
      obtain ⟨hl, hse, hsw, hst⟩ := hrest
      simp only [State.work, hcl, Client.udpCount_eq hcfg, hcfg, hnext, hkeys, hread, hl, hse, hsw,
        hst]
      omega
  | @reader c pc r cl hc hcfg hnext hkeys he hlt =>
      have hsum : ∑ j ∈ Finset.range s.cl.nextConn, s'.readerWork j <
          ∑ j ∈ Finset.range s.cl.nextConn, s.readerWork j := by
        refine Machine.sum_range_lt hc ?_ fun j hj => ?_
        · rw [he]
          simpa [State.readerWork] using hlt hctx
        · rw [he]
          simp [State.readerWork, hj]
      have hrecv : ∀ i, s'.receiverWork i = s.receiverWork i := by
        intro i
        rw [he]
        simp [State.receiverWork]
      have hcl : s'.cl = cl := by rw [he]
      have hrest : s'.listener = s.listener ∧ s'.sending = s.sending ∧ s'.sweep = s.sweep ∧
          s'.stop = s.stop := by rw [he]; exact ⟨rfl, rfl, rfl, rfl⟩
      obtain ⟨hl, hse, hsw, hst⟩ := hrest
      have hsweep : s.sweep.work cl.keys.length ≤ s.sweep.work s.cl.keys.length := by
        cases s.sweep <;> simp only [SweepPc.work] <;> omega
      simp only [State.work, hcl, Client.udpCount_eq hcfg, hcfg, hnext, hrecv, hl, hse, hsw, hst]
      omega
  | @sweep cl sw hcfg hnext he hlt =>
      subst he
      have hlt := hlt ht
      have hrecv : ∀ i, ({ s with cl := cl, sweep := sw } : State).receiverWork i =
          s.receiverWork i := fun _ => rfl
      have hread : ∀ c, ({ s with cl := cl, sweep := sw } : State).readerWork c =
          s.readerWork c := fun _ => rfl
      simp only [State.work, Client.udpCount_eq hcfg, hcfg, hnext, hrecv, hread]
      omega
  | stop hs =>
      have hst := hi.started.stops hs
      have hspend := hst.spends
      have hrecv : ∀ i, s'.receiverWork i = s.receiverWork i := by
        intro i
        rw [State.receiverWork, hst.receivers, hst.responses]
        rfl
      have hread : ∀ c, s'.readerWork c = s.readerWork c := by
        intro c
        rw [State.readerWork, hst.readers, hst.responses]
        rfl
      simp only [State.work, Client.udpCount_eq hst.cfg, hst.cfg, hst.nextConn, hst.keys,
        hst.listener, hst.sending, hst.sweep, hrecv, hread]
      omega

/-- The context stays cancelled. -/
theorem Turn.ctxDone (hi : Stopping s) (h : Turn s s' e) : s'.ctxDone = true := by
  have hctx := hi.ctxDone
  cases h with
  | listener he _ => rw [he]; exact hctx
  | sending hsent => cases hsent <;> exact hctx
  | receiver _ _ _ _ he _ => rw [he]; exact hctx
  | reader _ _ _ _ he _ => rw [he]; exact hctx
  | sweep _ _ he _ => rw [he]; exact hctx
  | stop hs => exact (hi.started.stops hs).cancelled

end Spending

/-- The ticker of the sweeper does not fire. -/
def Event.NoTick (e : Event) : Prop := ∀ now, e ≠ .tick now

theorem spends_stopping (cfg : ClientConfig) (counter : UInt64) :
    (machine cfg counter).Spends Stopping Event.NoTick State.work where
  keeps := fun hi _ hs => ⟨hi.started.step_started hs, (hi.started.turn_of_step hs).ctxDone hi⟩
  spends := fun hi ht hs => (hi.started.turn_of_step hs).work_lt hi ht

/-! ### Somebody can always move -/

/-- Everything has ended: the goroutines that `wg` counts, and the work of `Stop` before
`wg.Wait`. -/
structure State.Finished (s : State) : Prop where
  stop : s.stop = .waiting
  listener : s.listener = .done ∧ s.sending = none
  receivers : ∀ i < s.cl.udpCount, s.receivers i = .done ∧ s.responses (.udp i) = none
  readers : ∀ c < s.cl.nextConn, (s.readers c).pc = .done ∧ s.responses (.tcp c) = none
  sweep : s.sweep = .done

/-- A move that needs nothing from outside: no datagram, no frame, no server that takes a connection
or what is sent to it; only that a read with a deadline times out, and that a read from a closed
socket fails. -/
def Event.Unaided (s : State) : Event → Prop
  | .sourceSends _ _ => False
  | .listenerFails => s.listenerClosed = true
  | .listener _ _ connected sendOk => connected = false ∧ sendOk = false
  | .datagram _ _ => False
  | .receiverFails _ timeout => timeout = true
  | .lengthRead _ _ => False
  | .bodyRead _ _ => False
  | .readerFails _ timeout => timeout = true
  | .responder _ _ _ sendOk => sendOk = false
  | .tick _ => False
  | _ => True

/-- An unaided move is possible. -/
def GoesOn (s : State) : Prop := ∃ e : Event, e.Unaided s ∧ (step s e).isSome = true

section GoingOn

variable {s : State}

/-- The sweeper is never stuck, and ends. -/
theorem sweeper_goes_on (hctx : s.ctxDone = true) (h : s.sweep ≠ .done) : GoesOn s := by
  cases hsw : s.sweep with
  | waiting => exact ⟨.sweeperEnds, trivial, by simp [step, hsw, hctx]⟩
  | udp now todo =>
      cases todo with
      | nil => exact ⟨.sweepOn, trivial, by simp [step, hsw]⟩
      | cons source todo => exact ⟨.sweepSource source, trivial, by simp [step, hsw]⟩
  | between now => exact ⟨.sweepOn, trivial, by simp [step, hsw]⟩
  | tcp now todo =>
      cases todo with
      | nil => exact ⟨.sweepOn, trivial, by simp [step, hsw]⟩
      | cons key todo => exact ⟨.sweepKey key, trivial, by simp [step, hsw]⟩
  | done => exact absurd hsw h

/-- When no sweep holds a lock, a datagram being sent goes on. -/
theorem sending_goes_on (hudp : s.udpLocked = false) (htcp : s.tcpLocked = false)
    (h : s.sending ≠ none) : GoesOn s := by
  obtain ⟨x, hx⟩ := Option.ne_none_iff_exists'.mp h
  exact ⟨.listener 0 0 false false, ⟨rfl, rfl⟩, by simp [step, hx, hudp, htcp]⟩

/-- When no sweep holds a lock, a response in hand goes on. -/
theorem response_goes_on (hudp : s.udpLocked = false) (htcp : s.tcpLocked = false)
    {t : Responder} (h : s.responses t ≠ none) : GoesOn s := by
  obtain ⟨r, hr⟩ := Option.ne_none_iff_exists'.mp h
  have hfree : s.responseLocked r.pc = false := by
    unfold State.responseLocked
    split
    · exact hudp
    · exact hudp
    · exact htcp
    · rfl
  exact ⟨.responder t 0 s.cl.sources false, rfl, by simp [step, hr, hfree]⟩

/-- `Stop` itself is held up by a datagram being sent only. -/
theorem stop_goes_on (hsend : s.sending = none) (htcp : s.tcpLocked = false)
    (h : s.stop ≠ .waiting) : GoesOn s := by
  have hfree : s.sendersLocked = false := by simp [State.sendersLocked, hsend]
  refine ⟨.stop, trivial, ?_⟩
  cases hst : s.stop with
  | waiting => exact absurd hst h
  | running | listener | senders | sessions => simp [step, stepStop, hst, hfree, htcp]

theorem listener_goes_on (hsend : s.sending = none) (hclosed : s.listenerClosed = true)
    (h : s.listener ≠ .done) : GoesOn s := by
  cases hl : s.listener with
  | check => exact ⟨.listenerSelect, trivial, by simp [step, hl, hsend]⟩
  | read => exact ⟨.listenerFails, hclosed, by simp [step, hl]⟩
  | done => exact absurd hl h

theorem receiver_goes_on {i : SenderId} (hi : i < s.cl.udpCount)
    (hidle : s.responses (.udp i) = none) (h : s.receivers i ≠ .done) : GoesOn s := by
  cases hr : s.receivers i with
  | check =>
      have hlt : i < (addressesOf .udp s.cl.cfg.servers).length := hi
      exact ⟨.receiverSelect i, trivial, by simp [step, hr, hidle, hlt]⟩
  | read => exact ⟨.receiverFails i true, rfl, by simp [step, hr]⟩
  | done => exact absurd hr h

theorem reader_goes_on (hconn : Connections s) (htcp : s.tcpLocked = false) {c : ConnId}
    (hc : c < s.cl.nextConn) (hidle : s.responses (.tcp c) = none)
    (h : (s.readers c).pc ≠ .done) : GoesOn s := by
  cases hr : (s.readers c).pc with
  | idle => exact absurd ((hconn.spawned c).mp hr) (Nat.not_le.mpr hc)
  | check => exact ⟨.readerSelect c, trivial, by simp [step, hr, hidle]⟩
  | readLength => exact ⟨.readerFails c true, rfl, by simp [step, hr]⟩
  | readBody length => exact ⟨.readerFails c true, rfl, by simp [step, hr]⟩
  | cleanup => exact ⟨.cleanup c, trivial, by simp [step, hr, htcp]⟩
  | closing c' => exact ⟨.cleanup c, trivial, by cases c' <;> simp [step, hr]⟩
  | done => exact absurd hr h

/-- **Nobody waits for ever.**  Once the context is cancelled, everything has ended or an unaided
move is possible. -/
theorem goes_on (hi : Stopping s) : s.Finished ∨ GoesOn s := by
  by_cases hsw : s.sweep = .done
  swap
  · exact Or.inr (sweeper_goes_on hi.ctxDone hsw)
  have hudp : s.udpLocked = false := by simp [State.udpLocked, hsw]
  have htcp : s.tcpLocked = false := by simp [State.tcpLocked, hsw]
  by_cases hsend : s.sending = none
  swap
  · exact Or.inr (sending_goes_on hudp htcp hsend)
  by_cases hresp : ∃ t, s.responses t ≠ none
  · obtain ⟨t, ht⟩ := hresp
    exact Or.inr (response_goes_on hudp htcp ht)
  have hidle : ∀ t, s.responses t = none := by
    intro t
    by_contra ht
    exact hresp ⟨t, ht⟩
  by_cases hstop : s.stop = .waiting
  swap
  · exact Or.inr (stop_goes_on hsend htcp hstop)
  have hclosed := hi.started.closed (by simp [hstop]) (by simp [hstop])
  by_cases hl : s.listener = .done
  swap
  · exact Or.inr (listener_goes_on hsend hclosed hl)
  by_cases hrecv : ∃ i, i < s.cl.udpCount ∧ s.receivers i ≠ .done
  · obtain ⟨i, hlt, hne⟩ := hrecv
    exact Or.inr (receiver_goes_on hlt (hidle _) hne)
  by_cases hread : ∃ c, c < s.cl.nextConn ∧ (s.readers c).pc ≠ .done
  · obtain ⟨c, hlt, hne⟩ := hread
    exact Or.inr (reader_goes_on hi.started.connections htcp hlt (hidle _) hne)
  refine Or.inl ⟨hstop, ⟨hl, hsend⟩, fun i hlt => ⟨?_, hidle _⟩, fun c hlt => ⟨?_, hidle _⟩, hsw⟩
  · by_contra hne
    exact hrecv ⟨i, hlt, hne⟩
  · by_contra hne
    exact hread ⟨c, hlt, hne⟩

end GoingOn

/-- **`Stop` returns.**  In every state of the Go client in which the context is cancelled: however
the run goes on without a tick of the sweeper, it takes at most `s.work` steps (a tick adds those of
one more sweep, and the same holds of the state after it); as long as something has not ended, a move
is possible for which nothing has to arrive and every `Dial` and `Write` may fail; and by such moves
everything ends, after which every connection ever opened is closed. -/
theorem stop_returns (cfg : ClientConfig) (counter : UInt64) (es : List Event) {s : State}
    {tr : List Obs} (hrun : (machine cfg counter).exec es = some (s, tr))
    (hctx : s.ctxDone = true) :
    (∀ es' s' tr', (∀ e ∈ es', e.NoTick) → (machine cfg counter).execFrom s es' = some (s', tr') →
      es'.length + s'.work ≤ s.work ∧ (s'.Finished ∨ GoesOn s')) ∧
    ∃ es' s' tr', (∀ e ∈ es', e.NoTick) ∧
      (machine cfg counter).execFrom s es' = some (s', tr') ∧ s'.Finished ∧
      (∀ key, s'.cl.tcpSessions key = none) ∧
      ∀ c < s'.cl.nextConn,
        (s'.cl.tcpHeap c).cancelled = true ∧ (s'.cl.tcpHeap c).connClosed = true := by
  have hi : Stopping s := ⟨started_exec hrun, hctx⟩
  have hspends := spends_stopping cfg counter
  refine ⟨fun es' s' tr' hes hrun' => ?_, ?_⟩
  · obtain ⟨hi', hle⟩ := hspends.length_le hi hes hrun'
    exact ⟨hle, goes_on hi'⟩
  · have hgo : ∀ s, Stopping s → s.Finished ∨
        ∃ e s' o, Event.NoTick e ∧ (machine cfg counter).step s e = some (s', o) := by
      intro s hs
      refine (goes_on hs).imp_right fun h => ?_
      obtain ⟨e, hun, hsome⟩ := h
      obtain ⟨⟨s', obs⟩, hstep⟩ := Option.isSome_iff_exists.mp hsome
      refine ⟨e, s', obs, fun now he => ?_, hstep⟩
      rw [he] at hun
      exact hun
    obtain ⟨es', s', tr', hes, hrun', hdone⟩ := hspends.finishes hgo hi
    have hconn := (hspends.length_le hi hes hrun').1.started.connections
    have hclosed := hconn.all_closed fun c hc => (hdone.readers c hc).1
    exact ⟨es', s', tr', hes, hrun', hdone, hclosed⟩

/-- `Stop` is called while a datagram is on its way, a response is awaited on a connection and a
sweep is going on. -/
def stopInFlight : List Event :=
  sendDatagram demoAddr 10 11 ++
    [Event.readerSelect 0, Event.tick 75, Event.sweepSource demoAddr] ++
    [Event.listenerSelect, Event.sourceSends demoAddr [2], Event.stop]

/-- There is an end to it. -/
theorem stop_returns_in_flight :
    ∃ s tr, (machine demoConfig 0).exec stopInFlight = some (s, tr) ∧ s.sending.isSome = true ∧
      s.udpLocked = true ∧ (s.readers 0).pc = .readLength ∧
      ∃ es' s' tr', (∀ e ∈ es', e.NoTick) ∧
        (machine demoConfig 0).execFrom s es' = some (s', tr') ∧ s'.Finished ∧
        (∀ key, s'.cl.tcpSessions key = none) ∧
        ∀ c < s'.cl.nextConn,
          (s'.cl.tcpHeap c).cancelled = true ∧ (s'.cl.tcpHeap c).connClosed = true := by
  have hview : ((machine demoConfig 0).exec stopInFlight).map
      (fun r => (r.1.ctxDone, r.1.sending.isSome, r.1.udpLocked, (r.1.readers 0).pc)) =
        some (true, true, true, .readLength) := by decide
  obtain ⟨⟨s, tr⟩, hrun, hv⟩ := Option.map_eq_some_iff.mp hview
  simp only [Prod.mk.injEq] at hv
  obtain ⟨hctx, hsend, hlocked, hpc⟩ := hv
  exact ⟨s, tr, hrun, hsend, hlocked, hpc, (stop_returns demoConfig 0 stopInFlight hrun hctx).2⟩

end Fproxy.GoClient
