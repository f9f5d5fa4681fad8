import Fproxy.Client.Sending
import Fproxy.GoClient.State

/-!
# The Go client as a machine of goroutines

`handleListener` sends every datagram on every path; each UDP sender has a
`handleUDPServerResponse` and each TCP connection a `handleTCPServerResponse`;
`sessionCleanupLoop` sweeps, one entry at a time; `Stop` runs beside them.  Between two sections of
a goroutine any other may move, except where a sweep holds the lock of the table that the section
needs.

* `step` — one section of one goroutine, or one step of `Stop`.
* `Act` — what a step does to the tables, the datagram being sent, the responses being handled and
  the connections; `act_of_step` — every step is of that form.

The state is the one `Start` leaves behind.  A blocking call (`Dial`, `Write`, a read) returns when
an event says so.
-/

namespace Fproxy.GoClient

open Fproxy.Config Fproxy.GoFrameWriter Fproxy.GoProtocol Fproxy.Protocol Fproxy.Runs
open Fproxy.Client (SessionObj SenderId SessionKey Responder Sending SendPc Obs allocateSessionId)

/-- Where the loop of `handleListener` or `handleUDPServerResponse` stands. -/
inductive LoopPc where
  /-- At the `select` on the context, or handling what was read. -/
  | check
  | read
  | done
  deriving DecidableEq

/-- Where `handleTCPServerResponse` of a connection stands. -/
inductive ReaderPc where
  | idle
  /-- At the `select` on its context, or handling a response. -/
  | check
  | readLength
  | readBody (length : ℕ)
  /-- The deferred `cleanupTCPSession`. -/
  | cleanup
  /-- `cleanupTCPSession` has deleted a session, which it cancels and closes next. -/
  | closing (c : Option ConnId)
  | done
  deriving DecidableEq

/-- A `handleTCPServerResponse`: its `sourceAddr` and `sessionKey`, and where it stands. -/
structure Reader where
  key : SessionKey
  pc : ReaderPc
  deriving DecidableEq

/-- The next section of the handling of a response. -/
inductive ResponsePc where
  /-- The lookup in `udpSessionAddrs`. -/
  | lookupAddr
  /-- The loop over `udpSessions`. -/
  | findSession (source : SocketAddr)
  /-- The call of `IsDuplicate`. -/
  | check (source : SocketAddr) (o : SessionObj)
  /-- The update of `lastActivity`. -/
  | touch (source : SocketAddr) (o : SessionObj)
  /-- The update of the TCP session's `lastActivity`, over TCP only. -/
  | touchTcp (source : SocketAddr) (o : SessionObj)
  /-- `WriteToUDP`. -/
  | forward (source : SocketAddr) (o : SessionObj)
  deriving DecidableEq

/-- A response being handled. -/
structure Response where
  sessionId : UInt64
  seq : UInt32
  payload : List UInt8
  pc : ResponsePc
  deriving DecidableEq

/-- Where `sessionCleanupLoop` stands; `todo` is what a loop over a map has yet to visit. -/
inductive SweepPc where
  /-- At the `select` on the context and the ticker. -/
  | waiting
  | udp (now : ℕ) (todo : List SocketAddr)
  | between (now : ℕ)
  | tcp (now : ℕ) (todo : List SessionKey)
  | done
  deriving DecidableEq

/-- The next step of `Stop`. -/
inductive StopPc where
  /-- `Stop` has not been called. -/
  | running
  | listener
  | senders
  | sessions
  /-- `wg.Wait`. -/
  | waiting
  deriving DecidableEq

/-- The client, its goroutines and `Stop`. -/
structure State where
  cl : Client
  listener : LoopPc
  sending : Option Sending
  receivers : SenderId → LoopPc
  readers : ConnId → Reader
  responses : Responder → Option Response
  sweep : SweepPc
  stop : StopPc
  ctxDone : Bool
  listenerClosed : Bool
  sendersClosed : Bool

/-- One move. -/
inductive Event where
  /-- The `select` of `handleListener`. -/
  | listenerSelect
  /-- A datagram is read from the listener. -/
  | sourceSends (source : SocketAddr) (payload : List UInt8)
  /-- The read from the listener fails. -/
  | listenerFails
  /-- The next section of `handlePacket`. -/
  | listener (now : ℕ) (random : UInt32) (connected sendOk : Bool)
  /-- The `select` of a `handleUDPServerResponse`. -/
  | receiverSelect (i : SenderId)
  | datagram (i : SenderId) (data : List UInt8)
  /-- Its read fails, by a timeout or otherwise. -/
  | receiverFails (i : SenderId) (timeout : Bool)
  /-- The `select` of a `handleTCPServerResponse`. -/
  | readerSelect (c : ConnId)
  | lengthRead (c : ConnId) (length : UInt16)
  | bodyRead (c : ConnId) (data : List UInt8)
  /-- Its read fails, by a timeout or otherwise. -/
  | readerFails (c : ConnId) (timeout : Bool)
  /-- The next section of its deferred `cleanupTCPSession`. -/
  | cleanup (c : ConnId)
  /-- The next section of the handling of a response; `order` is how `udpSessions` is iterated. -/
  | responder (t : Responder) (now : ℕ) (order : List SocketAddr) (sendOk : Bool)
  /-- The ticker of `sessionCleanupLoop`. -/
  | tick (now : ℕ)
  | sweepSource (source : SocketAddr)
  | sweepKey (key : SessionKey)
  /-- The sweep leaves the loop it is in, or enters the second. -/
  | sweepOn
  /-- `sessionCleanupLoop` sees the end of the context. -/
  | sweeperEnds
  /-- The next step of `Stop`. -/
  | stop
  deriving DecidableEq

namespace State

/-- Set the response a goroutine is handling. -/
def setResponse (s : State) (t : Responder) (r : Option Response) : State :=
  { s with responses := Function.update s.responses t r }

/-- Set where a `handleTCPServerResponse` stands. -/
def setReader (s : State) (c : ConnId) (pc : ReaderPc) : State :=
  { s with readers := Function.update s.readers c { s.readers c with pc := pc } }

/-- A sweep holds the write lock of `udpSessions`. -/
def udpLocked (s : State) : Bool :=
  match s.sweep with
  | .udp _ _ => true
  | _ => false

/-- `handleUDPTransport` holds the read lock of the senders. -/
def sendersLocked (s : State) : Bool :=
  s.sending.any fun h => match h.pc with
    | .udp _ _ _ => true
    | _ => false

/-- A sweep holds the write lock of `tcpSessions`. -/
def tcpLocked (s : State) : Bool :=
  match s.sweep with
  | .tcp _ _ => true
  | _ => false

/-- `ctx.Done()` of a `handleTCPServerResponse`: its context ends with its session or with the
client. -/
def readerDone (s : State) (c : ConnId) : Bool := (s.cl.tcpHeap c).cancelled || s.ctxDone

end State

/-! ### The step function -/

/-- The section needs the lock of `udpSessions`. -/
def needsUdp : SendPc → Bool
  | .lookup | .create | .touch _ _ => true
  | _ => false

/-- The section needs the lock of `tcpSessions`. -/
def needsTcp : SendPc → Bool
  | .tcp _ _ (_ :: _) | .tcpCreate _ _ _ _ => true
  | _ => false

/-- The next section of `handlePacket`. -/
def stepListener (s : State) (h : Sending) (now : ℕ) (random : UInt32) (connected sendOk : Bool) :
    State × List Obs :=
  let goto (cl : Client) (pc : SendPc) : State :=
    { s with cl := cl, sending := some { h with pc := pc } }
  match h.pc with
  | .lookup =>
      match s.cl.udpSessions h.source with
      | some o => (goto s.cl (.number o), [])
      | none => (goto s.cl .create, [])
  | .create =>
      match s.cl.createUdpSession h.source random now with
      | (cl, o, true) => (goto cl (.number o), [.created o (cl.heap o).sessionId h.source])
      | (cl, o, false) => (goto cl (.number o), [])
  | .number o =>
      (goto (s.cl.takeSeq o).2 (.touch o (s.cl.takeSeq o).1),
        [.numbered o (s.cl.takeSeq o).1 h.payload])
  | .touch o seq =>
      (goto (s.cl.touch o now)
        (.udp o seq (List.range (addressesOf .udp s.cl.cfg.servers).length)), [])
  | .udp o seq [] => (goto s.cl (.tcp o seq (addressesOf .tcp s.cl.cfg.servers)), [])
  | .udp o seq (i :: senders) =>
      (goto s.cl (.udp o seq senders),
        if sendOk && !s.sendersClosed then [.sentUdp i (s.cl.udpPacket o seq h.payload)] else [])
  | .tcp _ _ [] => ({ s with sending := none }, [])
  | .tcp o seq (server :: servers) =>
      match s.cl.tcpSessions (h.source, server) with
      | some c => (goto s.cl (.tcpTouch o seq c servers), [])
      | none => (goto s.cl (.tcpCreate o seq server servers), [])
  | .tcpCreate o seq server servers =>
      match s.cl.createTcpSession (h.source, server) now connected with
      | (cl, some (c, true)) =>
          ({ goto cl (.tcpTouch o seq c servers) with
              readers := Function.update s.readers c ⟨(h.source, server), .check⟩ },
            [.connected c h.source server])
      | (cl, some (c, false)) => (goto cl (.tcpTouch o seq c servers), [])
      | (cl, none) => (goto cl (.tcp o seq servers), [])
  | .tcpTouch o seq c servers => (goto (s.cl.touchTcp c now) (.tcpSend o seq c servers), [])
  | .tcpSend o seq c servers =>
      match s.cl.tcpFrameFor c o seq h.payload with
      | .ok frame =>
          (goto s.cl (.tcp o seq servers),
            if sendOk && !(s.cl.tcpHeap c).connClosed then [.sentTcp c frame] else [])
      | .error _ => (goto s.cl (.tcp o seq servers), [])

/-- The section of the handling of a response needs a lock that a sweep holds. -/
def State.responseLocked (s : State) : ResponsePc → Bool
  | .findSession _ | .touch _ _ => s.udpLocked
  | .touchTcp _ _ => s.tcpLocked
  | _ => false

/-- What follows the update of the session's activity. -/
def afterTouch (t : Responder) (source : SocketAddr) (o : SessionObj) : ResponsePc :=
  match t with
  | .udp _ => .forward source o
  | .tcp _ => .touchTcp source o

/-- The next section of the handling of a response. -/
def stepResponder (s : State) (t : Responder) (r : Response) (now : ℕ) (order : List SocketAddr)
    (sendOk : Bool) : State × List Obs :=
  let goto (cl : Client) (pc : ResponsePc) : State :=
    { s with cl := cl }.setResponse t (some { r with pc := pc })
  let finish (cl : Client) : State := { s with cl := cl }.setResponse t none
  match r.pc with
  | .lookupAddr =>
      match s.cl.udpSessionAddrs r.sessionId with
      | some source => (goto s.cl (.findSession source), [])
      | none => (finish s.cl, [])
  | .findSession source =>
      match s.cl.findSession r.sessionId order with
      | some o => (goto s.cl (.check source o), [])
      | none => (finish s.cl, [])
  | .check source o =>
      match s.cl.checkResponse o r.seq with
      | (true, cl) => (finish cl, [.checked o r.seq true])
      | (false, cl) => (goto cl (.touch source o), [.checked o r.seq false])
  | .touch source o => (goto (s.cl.touch o now) (afterTouch t source o), [])
  | .touchTcp source o =>
      match t with
      | .udp _ => (goto s.cl (.forward source o), [])
      | .tcp c => (goto (s.cl.touchStored (s.readers c).key now) (.forward source o), [])
  | .forward source o =>
      (finish s.cl, [.forwarded o r.seq source r.payload (sendOk && !s.listenerClosed)])

/-- The next step of `Stop`; none once it waits. -/
def stepStop (s : State) : Option State :=
  match s.stop with
  | .running => some { s with ctxDone := true, stop := .listener }
  | .listener => some { s with listenerClosed := true, stop := .senders }
  | .senders =>
      if s.sendersLocked then none else some { s with sendersClosed := true, stop := .sessions }
  | .sessions =>
      if s.tcpLocked then none else some { s with cl := s.cl.closeAllTcp, stop := .waiting }
  | .waiting => none

/-- The decoder of a goroutine. -/
def decode : Responder → List UInt8 → Except ProtocolError Packet
  | .udp _ => decodeUDP
  | .tcp _ => decodeTCP

/-- A packet was read for a goroutine. -/
def received (s : State) (t : Responder) (data : List UInt8) : State :=
  match decode t data with
  | .error _ => s
  | .ok (sessionId, seq, payload) => s.setResponse t (some ⟨sessionId, seq, payload, .lookupAddr⟩)

/-- One move; `none` where the event cannot occur. -/
def step (s : State) : Event → Option (State × List Obs)
  | .listenerSelect =>
      if s.listener = .check ∧ s.sending = none then
        some ({ s with listener := if s.ctxDone then .done else .read }, [])
      else none
  | .sourceSends source payload =>
      if s.listener = .read ∧ s.sending = none ∧ s.listenerClosed = false then
        some ({ s with listener := .check, sending := some ⟨source, payload, .lookup⟩ },
          [.received source payload])
      else none
  | .listenerFails =>
      if s.listener = .read then
        some ({ s with listener := if s.ctxDone then .done else .check }, [])
      else none
  | .listener now random connected sendOk =>
      match s.sending with
      | none => none
      | some h =>
          if (needsUdp h.pc && s.udpLocked) || (needsTcp h.pc && s.tcpLocked) then none
          else some (stepListener s h now random connected sendOk)
  | .receiverSelect i =>
      if i < (addressesOf .udp s.cl.cfg.servers).length ∧ s.receivers i = .check ∧
          s.responses (.udp i) = none then
        some ({ s with receivers :=
          Function.update s.receivers i (if s.ctxDone then .done else .read) }, [])
      else none
  | .datagram i data =>
      if s.receivers i = .read ∧ s.responses (.udp i) = none ∧ s.sendersClosed = false then
        some (received { s with receivers := Function.update s.receivers i .check } (.udp i) data, [])
      else none
  | .receiverFails i timeout =>
      if s.receivers i = .read then
        some ({ s with receivers :=
          Function.update s.receivers i (if !timeout && s.ctxDone then .done else .check) }, [])
      else none
  | .readerSelect c =>
      if (s.readers c).pc = .check ∧ s.responses (.tcp c) = none then
        some (s.setReader c (if s.readerDone c then .cleanup else .readLength), [])
      else none
  | .lengthRead c length =>
      if (s.readers c).pc = .readLength ∧ (s.cl.tcpHeap c).connClosed = false then
        some (s.setReader c (if length = 0 then .cleanup else .readBody length.toNat), [])
      else none
  | .bodyRead c data =>
      if (s.readers c).pc = .readBody data.length ∧ s.responses (.tcp c) = none ∧
          (s.cl.tcpHeap c).connClosed = false then
        some (received (s.setReader c .check) (.tcp c) data, [])
      else none
  | .readerFails c timeout =>
      match (s.readers c).pc with
      | .readLength => some (s.setReader c (if timeout then .check else .cleanup), [])
      | .readBody _ => some (s.setReader c .cleanup, [])
      | _ => none
  | .cleanup c =>
      match (s.readers c).pc with
      | .cleanup =>
          if s.tcpLocked then none
          else
            some ({ s with cl := (s.cl.removeTcp (s.readers c).key).2 }.setReader c
              (.closing (s.cl.removeTcp (s.readers c).key).1), [])
      | .closing none => some (s.setReader c .done, [])
      | .closing (some c') => some ({ s with cl := s.cl.closeTcp c' }.setReader c .done, [])
      | _ => none
  | .responder t now order sendOk =>
      match s.responses t with
      | none => none
      | some r =>
          if s.responseLocked r.pc ∨ ¬ order.Perm s.cl.sources then none
          else some (stepResponder s t r now order sendOk)
  | .tick now =>
      if s.sweep = .waiting then some ({ s with sweep := .udp now s.cl.sources }, []) else none
  | .sweepSource source =>
      match s.sweep with
      | .udp now todo =>
          if source ∈ todo then
            some ({ s with
              cl := s.cl.expireUdp now source, sweep := .udp now (todo.erase source) }, [])
          else none
      | _ => none
  | .sweepKey key =>
      match s.sweep with
      | .tcp now todo =>
          if todo.contains key then
            some ({ s with cl := s.cl.expireTcp now key, sweep := .tcp now (todo.erase key) }, [])
          else none
      | _ => none
  | .sweepOn =>
      match s.sweep with
      | .udp now [] => some ({ s with sweep := .between now }, [])
      | .between now => some ({ s with sweep := .tcp now s.cl.keys }, [])
      | .tcp _ [] => some ({ s with sweep := .waiting }, [])
      | _ => none
  | .sweeperEnds =>
      if s.sweep = .waiting ∧ s.ctxDone = true then some ({ s with sweep := .done }, []) else none
  | .stop => (stepStop s).map fun s' => (s', [])

/-- The client that `New` and `Start` leave behind. -/
def machine (cfg : ClientConfig) (counter : UInt64) : Machine State Event Obs where
  init :=
    { cl := new cfg counter
      listener := .check
      sending := none
      receivers := fun _ => .check
      readers := fun _ => ⟨(⟨.v4 0, 0⟩, ""), .idle⟩
      responses := fun _ => none
      sweep := .waiting
      stop := .running
      ctxDone := false
      listenerClosed := false
      sendersClosed := false }
  step := step

/-! ### The step relation -/

/-- The packet an event brings in, and the goroutine that takes it. -/
def Event.packet : Event → Option (Responder × List UInt8)
  | .datagram i data => some (.udp i, data)
  | .bodyRead c data => some (.tcp c, data)
  | _ => none

/-- The goroutine has deleted what it found under its key, and won't do so again. -/
def ReaderPc.past : ReaderPc → Bool
  | .closing _ => true
  | .done => true
  | _ => false

/-- The goroutines of the connections are the same; none has started, or deleted a session, and
none that is about to close a session has moved. -/
structure SameReaders (rs rs' : ConnId → Reader) : Prop where
  key : ∀ c, (rs' c).key = (rs c).key
  idle : ∀ c, (rs' c).pc = .idle ↔ (rs c).pc = .idle
  past : ∀ c, (rs' c).pc.past = (rs c).pc.past
  closing : ∀ c c', (rs c).pc = .closing (some c') → (rs' c).pc = .closing (some c')

theorem SameReaders.refl (rs : ConnId → Reader) : SameReaders rs rs :=
  ⟨fun _ => rfl, fun _ => Iff.rfl, fun _ => rfl, fun _ _ h => h⟩

theorem setReader_key (s : State) (c c' : ConnId) (pc : ReaderPc) :
    ((s.setReader c pc).readers c').key = (s.readers c').key := by
  by_cases h : c' = c
  · subst h
    simp [State.setReader]
  · simp [State.setReader, Function.update_of_ne h]

theorem setReader_pc (s : State) (c c' : ConnId) (pc : ReaderPc) :
    ((s.setReader c pc).readers c').pc = if c' = c then pc else (s.readers c').pc := by
  by_cases h : c' = c
  · subst h
    simp [State.setReader]
  · simp [State.setReader, h]

/-- A goroutine that has not deleted a session, or found none, moves on. -/
theorem sameReaders_setReader {s : State} {c : ConnId} {pc pc' : ReaderPc}
    (hc : (s.readers c).pc = pc) (hidle : pc ≠ .idle) (hidle' : pc' ≠ .idle)
    (hpast : pc'.past = pc.past) (hclosing : ∀ c', pc ≠ .closing (some c')) :
    SameReaders s.readers (s.setReader c pc').readers := by
  refine ⟨fun c' => setReader_key s c c' pc', fun c' => ?_, fun c' => ?_, fun c' c₁ h => ?_⟩ <;>
    rw [setReader_pc]
  · split
    · next he =>
        rw [he, hc]
        exact iff_of_false hidle' hidle
    · rfl
  · split
    · next he => rw [he, hc, hpast]
    · rfl
  · split
    · next he =>
        rw [he, hc] at h
        exact absurd h (hclosing c₁)
    · exact h

/-- What a step does, with one rule for each way it goes. -/
inductive Act (s : State) : Event → State → List Obs → Prop
  /-- A loop moves, or `Stop` closes something that is no TCP session. -/
  | loop {e : Event} {s' : State} :
      s'.cl = s.cl → s'.sending = s.sending → s'.responses = s.responses →
      SameReaders s.readers s'.readers →
      Act s e s' []
  | sourceSends {source : SocketAddr} {payload : List UInt8} : s.sending = none →
      Act s (.sourceSends source payload)
        { s with listener := .check, sending := some ⟨source, payload, .lookup⟩ }
        [.received source payload]
  /-- `handlePacket` goes on with the session it has, if any, and no connection. -/
  | goto {h : Sending} {pc : SendPc} {e : Event} :
      s.sending = some h → (∀ o, pc.obj = some o → h.pc.obj = some o) → pc.conn = none →
      Act s e { s with sending := some { h with pc := pc } } []
  | found {h : Sending} {o : SessionObj} {e : Event} :
      s.sending = some h → s.cl.udpSessions h.source = some o →
      Act s e { s with sending := some { h with pc := .number o } } []
  | createNew {h : Sending} {now : ℕ} {random : UInt32} {b b' : Bool} :
      s.sending = some h → s.cl.udpSessions h.source = none →
      Act s (.listener now random b b')
        { s with
          cl := (s.cl.createUdpSession h.source random now).1
          sending := some { h with pc := .number s.cl.next } }
        [.created s.cl.next (allocateSessionId s.cl.sessionIdCounter) h.source]
  | number {h : Sending} {o : SessionObj} {now : ℕ} {random : UInt32} {b b' : Bool} :
      s.sending = some h → h.pc = .number o →
      Act s (.listener now random b b')
        { s with
          cl := (s.cl.takeSeq o).2
          sending := some { h with pc := .touch o (s.cl.heap o).seq } }
        [.numbered o (s.cl.heap o).seq h.payload]
  | touch {h : Sending} {o : SessionObj} {seq : UInt32} {now : ℕ} {random : UInt32}
      {b b' : Bool} :
      s.sending = some h → h.pc = .touch o seq →
      Act s (.listener now random b b')
        { s with
          cl := s.cl.touch o now
          sending := some { h with
            pc := .udp o seq (List.range (addressesOf .udp s.cl.cfg.servers).length) } } []
  | udpSend {h : Sending} {o : SessionObj} {seq : UInt32} {i : SenderId}
      {senders : List SenderId} {e : Event} {ok : Bool} :
      s.sending = some h → h.pc = .udp o seq (i :: senders) →
      Act s e { s with sending := some { h with pc := .udp o seq senders } }
        (if ok then [.sentUdp i (s.cl.udpPacket o seq h.payload)] else [])
  | foundTcp {h : Sending} {o : SessionObj} {seq : UInt32} {server : String}
      {servers : List String} {c : ConnId} {e : Event} :
      s.sending = some h → h.pc.obj = some o → s.cl.tcpSessions (h.source, server) = some c →
      Act s e { s with sending := some { h with pc := .tcpTouch o seq c servers } } []
  | tcpCreateNew {h : Sending} {o : SessionObj} {seq : UInt32} {server : String}
      {servers : List String} {now : ℕ} {random : UInt32} {b' : Bool} :
      s.sending = some h → h.pc = .tcpCreate o seq server servers →
      s.cl.tcpSessions (h.source, server) = none →
      Act s (.listener now random true b')
        { s with
          cl := (s.cl.createTcpSession (h.source, server) now true).1
          sending := some { h with pc := .tcpTouch o seq s.cl.nextConn servers }
          readers := Function.update s.readers s.cl.nextConn ⟨(h.source, server), .check⟩ }
        [.connected s.cl.nextConn h.source server]
  | tcpTouch {h : Sending} {o : SessionObj} {seq : UInt32} {c : ConnId}
      {servers : List String} {now : ℕ} {random : UInt32} {b b' : Bool} :
      s.sending = some h → h.pc = .tcpTouch o seq c servers →
      Act s (.listener now random b b')
        { s with
          cl := s.cl.touchTcp c now
          sending := some { h with pc := .tcpSend o seq c servers } } []
  | tcpSend {h : Sending} {o : SessionObj} {seq : UInt32} {c : ConnId} {servers : List String}
      {frame : List UInt8} {e : Event} {ok : Bool} :
      s.sending = some h → h.pc = .tcpSend o seq c servers →
      s.cl.tcpFrameFor c o seq h.payload = .ok frame →
      Act s e { s with sending := some { h with pc := .tcp o seq servers } }
        (if ok then [.sentTcp c frame] else [])
  | sent {h : Sending} {e : Event} : s.sending = some h → Act s e { s with sending := none } []
  | arrive {e : Event} {s' : State} {t : Responder} {data : List UInt8} {sid : UInt64}
      {seq : UInt32} {payload : List UInt8} :
      e.packet = some (t, data) → s.responses t = none →
      decodePacket data = .ok (sid, seq, payload) → s'.cl = s.cl → s'.sending = s.sending →
      s'.responses = Function.update s.responses t (some ⟨sid, seq, payload, .lookupAddr⟩) →
      SameReaders s.readers s'.readers → Act s e s' []
  | addrHit {t : Responder} {r : Response} {source : SocketAddr} {e : Event} :
      s.responses t = some r → r.pc = .lookupAddr →
      s.cl.udpSessionAddrs r.sessionId = some source →
      Act s e (s.setResponse t (some { r with pc := .findSession source })) []
  | sessionHit {t : Responder} {r : Response} {source source' : SocketAddr} {o : SessionObj}
      {e : Event} :
      s.responses t = some r → r.pc = .findSession source →
      s.cl.udpSessions source' = some o → (s.cl.heap o).sessionId = r.sessionId →
      Act s e (s.setResponse t (some { r with pc := .check source o })) []
  /-- No address or no session has the id of the response. -/
  | drop {t : Responder} {r : Response} {e : Event} :
      s.responses t = some r →
      (r.pc = .lookupAddr ∨ ∃ source, r.pc = .findSession source) →
      Act s e (s.setResponse t none) []
  | checkDup {t : Responder} {r : Response} {source : SocketAddr} {o : SessionObj} {now : ℕ}
      {order : List SocketAddr} {b : Bool} :
      s.responses t = some r → r.pc = .check source o →
      (s.cl.checkResponse o r.seq).1 = true →
      Act s (.responder t now order b)
        ({ s with cl := (s.cl.checkResponse o r.seq).2 }.setResponse t none)
        [.checked o r.seq true]
  | checkNew {t : Responder} {r : Response} {source : SocketAddr} {o : SessionObj} {now : ℕ}
      {order : List SocketAddr} {b : Bool} :
      s.responses t = some r → r.pc = .check source o →
      (s.cl.checkResponse o r.seq).1 = false →
      Act s (.responder t now order b)
        ({ s with cl := (s.cl.checkResponse o r.seq).2 }.setResponse t
          (some { r with pc := .touch source o }))
        [.checked o r.seq false]
  | responseTouch {t : Responder} {r : Response} {source : SocketAddr} {o : SessionObj}
      {now : ℕ} {order : List SocketAddr} {b : Bool} :
      s.responses t = some r → r.pc = .touch source o →
      Act s (.responder t now order b)
        ({ s with cl := s.cl.touch o now }.setResponse t
          (some { r with pc := afterTouch t source o })) []
  | responseTouchTcp {r : Response} {source : SocketAddr} {o : SessionObj} {c : ConnId} {now : ℕ}
      {order : List SocketAddr} {b : Bool} :
      s.responses (.tcp c) = some r → r.pc = .touchTcp source o →
      Act s (.responder (.tcp c) now order b)
        ({ s with cl := s.cl.touchStored (s.readers c).key now }.setResponse (.tcp c)
          (some { r with pc := .forward source o })) []
  | responseGoto {t : Responder} {r : Response} {source : SocketAddr} {o : SessionObj}
      {e : Event} :
      s.responses t = some r → r.pc = .touchTcp source o →
      Act s e (s.setResponse t (some { r with pc := .forward source o })) []
  | forward {t : Responder} {r : Response} {source : SocketAddr} {o : SessionObj} {e : Event}
      {ok : Bool} :
      s.responses t = some r → r.pc = .forward source o →
      Act s e (s.setResponse t none) [.forwarded o r.seq source r.payload ok]
  | remove {c : ConnId} : (s.readers c).pc = .cleanup → s.tcpLocked = false →
      Act s (.cleanup c)
        ({ s with cl := (s.cl.removeTcp (s.readers c).key).2 }.setReader c
          (.closing (s.cl.removeTcp (s.readers c).key).1)) []
  | close {c c' : ConnId} : (s.readers c).pc = .closing (some c') →
      Act s (.cleanup c) ({ s with cl := s.cl.closeTcp c' }.setReader c .done) []
  | expireUdp {now : ℕ} {source : SocketAddr} {todo : List SocketAddr} :
      s.sweep = .udp now todo → source ∈ todo →
      Act s (.sweepSource source)
        { s with cl := s.cl.expireUdp now source, sweep := .udp now (todo.erase source) } []
  | expireTcp {now : ℕ} {key : SessionKey} {todo : List SessionKey} :
      s.sweep = .tcp now todo → key ∈ todo →
      Act s (.sweepKey key)
        { s with cl := s.cl.expireTcp now key, sweep := .tcp now (todo.erase key) } []
  | closeAll : s.stop = .sessions → s.tcpLocked = false →
      Act s .stop { s with cl := s.cl.closeAllTcp, stop := .waiting } []

theorem decode_eq (t : Responder) (data : List UInt8) : decode t data = decodePacket data := by
  cases t with
  | udp i => exact decodeUDP_eq data
  | tcp c => exact decodeTCP_eq data

/-- What the loop over `udpSessions` finds is stored, and has the id. -/
theorem findSession_eq_some {cl : Client} {sid : UInt64} {order : List SocketAddr}
    {o : SessionObj} (h : cl.findSession sid order = some o) :
    ∃ source ∈ order, cl.udpSessions source = some o ∧ (cl.heap o).sessionId = sid := by
  induction order with
  | nil => exact absurd h (by simp [Client.findSession])
  | cons source order ih =>
      have hlater : cl.findSession sid order = some o → ∃ source' ∈ source :: order,
          cl.udpSessions source' = some o ∧ (cl.heap o).sessionId = sid := by
        intro h
        obtain ⟨source', hm, hs⟩ := ih h
        exact ⟨source', List.mem_cons_of_mem _ hm, hs⟩
      rw [Client.findSession] at h
      split at h
      · exact hlater h
      · next o' ho' =>
          split at h
          · next hid =>
              rw [← Option.some.inj h]
              exact ⟨source, List.mem_cons_self, ho', hid⟩
          · exact hlater h

theorem act_of_stepListener {s s' : State} {h : Sending} {now : ℕ} {random : UInt32}
    {b b' : Bool} {obs : List Obs} (ht : s.sending = some h)
    (hs : stepListener s h now random b b' = (s', obs)) :
    Act s (.listener now random b b') s' obs := by
  unfold stepListener at hs
  dsimp only at hs
  split at hs
  · split at hs <;> obtain ⟨rfl, rfl⟩ := Prod.mk.inj hs
    · next hsess => exact .found ht hsess
    · exact .goto ht (fun _ h => absurd h (by simp [SendPc.obj])) rfl
  · cases hsess : s.cl.udpSessions h.source with
    | some o =>
        simp only [Client.createUdpSession, hsess] at hs
        obtain ⟨rfl, rfl⟩ := Prod.mk.inj hs
        exact .found ht hsess
    | none =>
        have hnew : s.cl.createUdpSession h.source random now =
            ((s.cl.createUdpSession h.source random now).1, s.cl.next, true) := by
          simp only [Client.createUdpSession, hsess]
        have hid : (((s.cl.createUdpSession h.source random now).1).heap s.cl.next).sessionId =
            allocateSessionId s.cl.sessionIdCounter := by
          simp only [Client.createUdpSession, hsess, Function.update_self, UDPSession.new]
        rw [hnew] at hs
        obtain ⟨rfl, rfl⟩ := Prod.mk.inj hs
        rw [hid]
        exact .createNew ht hsess
  · next hpc =>
      obtain ⟨rfl, rfl⟩ := Prod.mk.inj hs
      exact .number ht hpc
  · next hpc =>
      obtain ⟨rfl, rfl⟩ := Prod.mk.inj hs
      exact .touch ht hpc
  · next hpc =>
      obtain ⟨rfl, rfl⟩ := Prod.mk.inj hs
      refine .goto ht (fun o ho => ?_) rfl
      rw [hpc]
      exact ho
  · next hpc =>
      obtain ⟨rfl, rfl⟩ := Prod.mk.inj hs
      exact .udpSend ht hpc
  · obtain ⟨rfl, rfl⟩ := Prod.mk.inj hs
    exact .sent ht
  · next hpc =>
      split at hs <;> obtain ⟨rfl, rfl⟩ := Prod.mk.inj hs
      · next hsess => exact .foundTcp ht (by rw [hpc]; rfl) hsess
      · refine .goto ht (fun o ho => ?_) rfl
        rw [hpc]
        exact ho
  · next o seq server servers hpc =>
      cases hsess : s.cl.tcpSessions (h.source, server) with
      | some c =>
          simp only [Client.createTcpSession, hsess] at hs
          obtain ⟨rfl, rfl⟩ := Prod.mk.inj hs
          exact .foundTcp ht (by rw [hpc]; rfl) hsess
      | none =>
          cases b with
          | false =>
              simp only [Client.createTcpSession, hsess] at hs
              obtain ⟨rfl, rfl⟩ := Prod.mk.inj hs
              refine .goto ht (fun o ho => ?_) rfl
              rw [hpc]
              exact ho
          | true =>
              have hnew : s.cl.createTcpSession (h.source, server) now true =
                  ((s.cl.createTcpSession (h.source, server) now true).1,
                    some (s.cl.nextConn, true)) := by
                simp only [Client.createTcpSession, hsess, if_true]
              rw [hnew] at hs
              obtain ⟨rfl, rfl⟩ := Prod.mk.inj hs
              exact .tcpCreateNew ht hpc hsess
  · next hpc =>
      obtain ⟨rfl, rfl⟩ := Prod.mk.inj hs
      exact .tcpTouch ht hpc
  · next hpc =>
      split at hs <;> obtain ⟨rfl, rfl⟩ := Prod.mk.inj hs
      · next hframe => exact .tcpSend ht hpc hframe
      · refine .goto ht (fun o ho => ?_) rfl
        rw [hpc]
        exact ho

theorem act_of_stepResponder {s s' : State} {t : Responder} {r : Response} {now : ℕ}
    {order : List SocketAddr} {b : Bool} {obs : List Obs} (ht : s.responses t = some r)
    (hs : stepResponder s t r now order b = (s', obs)) :
    Act s (.responder t now order b) s' obs := by
  unfold stepResponder at hs
  dsimp only at hs
  split at hs
  · next hpc =>
      split at hs <;> obtain ⟨rfl, rfl⟩ := Prod.mk.inj hs
      · next haddr => exact .addrHit ht hpc haddr
      · exact .drop ht (Or.inl hpc)
  · next source hpc =>
      split at hs <;> obtain ⟨rfl, rfl⟩ := Prod.mk.inj hs
      · next hfind =>
          obtain ⟨source', -, hsess, hid⟩ := findSession_eq_some hfind
          exact .sessionHit ht hpc hsess hid
      · exact .drop ht (Or.inr ⟨source, hpc⟩)
  · next source o hpc =>
      split at hs
      · next cl hd =>
          obtain ⟨rfl, rfl⟩ := Prod.mk.inj hs
          have hcl : cl = (s.cl.checkResponse o r.seq).2 := by rw [hd]
          rw [hcl]
          exact .checkDup ht hpc (by rw [hd])
      · next cl hd =>
          obtain ⟨rfl, rfl⟩ := Prod.mk.inj hs
          have hcl : cl = (s.cl.checkResponse o r.seq).2 := by rw [hd]
          rw [hcl]
          exact .checkNew ht hpc (by rw [hd])
  · next hpc =>
      obtain ⟨rfl, rfl⟩ := Prod.mk.inj hs
      exact .responseTouch ht hpc
  · next hpc =>
      split at hs <;> obtain ⟨rfl, rfl⟩ := Prod.mk.inj hs
      · exact .responseGoto ht hpc
      · exact .responseTouchTcp ht hpc
  · next hpc =>
      obtain ⟨rfl, rfl⟩ := Prod.mk.inj hs
      exact .forward ht hpc

/-- A packet that was read is dropped or taken in. -/
theorem act_of_received {s s₁ : State} {e : Event} {t : Responder} {data : List UInt8}
    (he : e.packet = some (t, data)) (hidle : s.responses t = none) (hcl : s₁.cl = s.cl)
    (hsending : s₁.sending = s.sending) (hresp : s₁.responses = s.responses)
    (hread : SameReaders s.readers s₁.readers) : Act s e (received s₁ t data) [] := by
  unfold received
  rw [decode_eq]
  split
  · exact .loop hcl hsending hresp hread
  · next hdec => exact .arrive he hidle hdec hcl hsending (by rw [← hresp]; rfl) hread

/-- **Inversion.**  Every move of the step function is an instance of one rule. -/
theorem act_of_step {s s' : State} {e : Event} {obs : List Obs}
    (h : step s e = some (s', obs)) : Act s e s' obs := by
  have hsame := SameReaders.refl s.readers
  cases e with
  | listenerSelect | listenerFails | receiverSelect _ | receiverFails _ _ | tick _
  | sweeperEnds =>
      obtain ⟨-, h⟩ := Option.ite_none_right_eq_some.mp h
      obtain ⟨rfl, rfl⟩ := Prod.mk.inj (Option.some.inj h)
      exact .loop rfl rfl rfl hsame
  | sourceSends source payload =>
      obtain ⟨hc, h⟩ := Option.ite_none_right_eq_some.mp h
      obtain ⟨rfl, rfl⟩ := Prod.mk.inj (Option.some.inj h)
      exact .sourceSends hc.2.1
  | listener now random b b' =>
      simp only [step] at h
      split at h
      · exact absurd h (by simp)
      · next hd ht =>
          obtain ⟨-, h⟩ := Option.ite_none_left_eq_some.mp h
          exact act_of_stepListener ht (Option.some.inj h)
  | datagram i data =>
      obtain ⟨hc, h⟩ := Option.ite_none_right_eq_some.mp h
      obtain ⟨rfl, rfl⟩ := Prod.mk.inj (Option.some.inj h)
      exact act_of_received rfl hc.2.1 rfl rfl rfl hsame
  | readerSelect c =>
      obtain ⟨hc, h⟩ := Option.ite_none_right_eq_some.mp h
      obtain ⟨rfl, rfl⟩ := Prod.mk.inj (Option.some.inj h)
      refine .loop rfl rfl rfl (sameReaders_setReader hc.1 (by simp) ?_ ?_ (by simp))
      · split <;> simp
      · split <;> rfl
  | lengthRead c length =>
      obtain ⟨hc, h⟩ := Option.ite_none_right_eq_some.mp h
      obtain ⟨rfl, rfl⟩ := Prod.mk.inj (Option.some.inj h)
      refine .loop rfl rfl rfl (sameReaders_setReader hc.1 (by simp) ?_ ?_ (by simp))
      · split <;> simp
      · split <;> rfl
  | bodyRead c data =>
      obtain ⟨hc, h⟩ := Option.ite_none_right_eq_some.mp h
      obtain ⟨rfl, rfl⟩ := Prod.mk.inj (Option.some.inj h)
      exact act_of_received rfl hc.2.1 rfl rfl rfl
        (sameReaders_setReader hc.1 (by simp) (by simp) rfl (by simp))
  | readerFails c timeout =>
      simp only [step] at h
      split at h
      · next hpc =>
          obtain ⟨rfl, rfl⟩ := Prod.mk.inj (Option.some.inj h)
          refine .loop rfl rfl rfl (sameReaders_setReader hpc (by simp) ?_ ?_ (by simp))
          · split <;> simp
          · split <;> rfl
      · next hpc =>
          obtain ⟨rfl, rfl⟩ := Prod.mk.inj (Option.some.inj h)
          exact .loop rfl rfl rfl (sameReaders_setReader hpc (by simp) (by simp) rfl (by simp))
      · exact absurd h (by simp)
  | cleanup c =>
      simp only [step] at h
      split at h
      · next hpc =>
          obtain ⟨hfree, h⟩ := Option.ite_none_left_eq_some.mp h
          obtain ⟨rfl, rfl⟩ := Prod.mk.inj (Option.some.inj h)
          exact .remove hpc (by simpa using hfree)
      · next hpc =>
          obtain ⟨rfl, rfl⟩ := Prod.mk.inj (Option.some.inj h)
          exact .loop rfl rfl rfl (sameReaders_setReader hpc (by simp) (by simp) rfl (by simp))
      · next hpc =>
          obtain ⟨rfl, rfl⟩ := Prod.mk.inj (Option.some.inj h)
          exact .close hpc
      · exact absurd h (by simp)
  | responder t now order b =>
      simp only [step] at h
      split at h
      · exact absurd h (by simp)
      · next r ht =>
          obtain ⟨-, h⟩ := Option.ite_none_left_eq_some.mp h
          exact act_of_stepResponder ht (Option.some.inj h)
  | sweepSource source =>
      simp only [step] at h
      split at h
      · next now todo hsw =>
          obtain ⟨hm, h⟩ := Option.ite_none_right_eq_some.mp h
          obtain ⟨rfl, rfl⟩ := Prod.mk.inj (Option.some.inj h)
          exact .expireUdp hsw hm
      · exact absurd h (by simp)
  | sweepKey key =>
      simp only [step] at h
      split at h
      · next now todo hsw =>
          obtain ⟨hm, h⟩ := Option.ite_none_right_eq_some.mp h
          obtain ⟨rfl, rfl⟩ := Prod.mk.inj (Option.some.inj h)
          exact .expireTcp hsw (List.contains_iff_mem.mp hm)
      · exact absurd h (by simp)
  | sweepOn =>
      simp only [step] at h
      split at h
      · obtain ⟨rfl, rfl⟩ := Prod.mk.inj (Option.some.inj h)
        exact .loop rfl rfl rfl hsame
      · obtain ⟨rfl, rfl⟩ := Prod.mk.inj (Option.some.inj h)
        exact .loop rfl rfl rfl hsame
      · obtain ⟨rfl, rfl⟩ := Prod.mk.inj (Option.some.inj h)
        exact .loop rfl rfl rfl hsame
      · exact absurd h (by simp)
  | stop =>
      obtain ⟨s₁, hs, he⟩ := Option.map_eq_some_iff.mp h
      obtain ⟨rfl, rfl⟩ := Prod.mk.inj he
      unfold stepStop at hs
      split at hs
      · obtain rfl := Option.some.inj hs
        exact .loop rfl rfl rfl hsame
      · obtain rfl := Option.some.inj hs
        exact .loop rfl rfl rfl hsame
      · obtain ⟨-, hs⟩ := Option.ite_none_left_eq_some.mp hs
        obtain rfl := Option.some.inj hs
        exact .loop rfl rfl rfl hsame
      · next hstop =>
          obtain ⟨hfree, hs⟩ := Option.ite_none_left_eq_some.mp hs
          obtain rfl := Option.some.inj hs
          exact .closeAll hstop (by simpa using hfree)
      · exact absurd hs (by simp)

theorem act_of_machine {cfg : ClientConfig} {counter : UInt64} {s s' : State} {e : Event}
    {obs : List Obs} (h : (machine cfg counter).step s e = some (s', obs)) : Act s e s' obs :=
  act_of_step h

/-- A configuration to run: one server reached over UDP and over TCP. -/
def demoConfig : ClientConfig := ⟨[⟨"127.0.0.1:1", .udp⟩, ⟨"127.0.0.1:2", .tcp⟩], 60⟩

/-- A datagram of a source is read and sent on both paths. -/
def sendDatagram (source : SocketAddr) (now steps : ℕ) : List Event :=
  .listenerSelect :: .sourceSends source [1] :: List.replicate steps (.listener now 0 true true)

end Fproxy.GoClient
