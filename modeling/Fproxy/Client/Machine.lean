import Fproxy.Library.Runs
import Fproxy.Client.State

/-!
# The client as interleaved tasks

One task reads the sources' listener and sends each datagram on every path; one task for each UDP
sender and one for each TCP connection reads responses; one task sweeps.  Between two of its
lock-protected sections any other task may move.  As for the server, a task is a program counter
and an event names the task that moves next and what the environment decides for that section.

* `step` — the executable step function.
* `Act` — the same as a relation with one rule for each section; `act_of_step` is the inversion
  lemma.
-/

namespace Fproxy.Client

open Fproxy.Config Fproxy.Protocol Fproxy.TcpFraming Fproxy.Runs

/-! ### Tasks -/

/-- The next section of `handle_packet`. -/
inductive SendPc where
  /-- The read-locked check of `get_or_create_udp_session`. -/
  | lookup
  /-- Its write-locked check and creation. -/
  | create
  /-- The `fetch_add` on the sequence counter. -/
  | number (o : SessionObj)
  /-- The write of `last_activity`. -/
  | touch (o : SessionObj) (seq : UInt32)
  /-- The loop of `handle_udp_transport`, with the senders left. -/
  | udp (o : SessionObj) (seq : UInt32) (senders : List SenderId)
  /-- The loop of `handle_tcp_transport`, with the servers left: the read-locked check of
  `get_or_create_tcp_session` for the first of them. -/
  | tcp (o : SessionObj) (seq : UInt32) (servers : List String)
  /-- The write-locked check and creation for a server. -/
  | tcpCreate (o : SessionObj) (seq : UInt32) (server : String) (servers : List String)
  /-- The write of the TCP session's `last_activity`. -/
  | tcpTouch (o : SessionObj) (seq : UInt32) (c : ConnId) (servers : List String)
  /-- `send_tcp_frame`. -/
  | tcpSend (o : SessionObj) (seq : UInt32) (c : ConnId) (servers : List String)
  deriving DecidableEq

/-- A datagram of a source being sent. -/
structure Sending where
  source : SocketAddr
  payload : List UInt8
  pc : SendPc
  deriving DecidableEq

/-- A task that handles responses: `handle_udp_server_response` of a UDP sender or
`handle_tcp_server_response` of a connection. -/
inductive Responder where
  | udp (i : SenderId)
  | tcp (c : ConnId)
  deriving DecidableEq

/-- The next section of `process_udp_response` or `process_tcp_response`. -/
inductive ResponsePc where
  /-- The lookup in `udp_session_addrs`, over UDP only. -/
  | lookupAddr
  /-- The lookup in `udp_sessions`. -/
  | lookupSession (source : SocketAddr)
  /-- The call of `is_duplicate`. -/
  | check (source : SocketAddr) (o : SessionObj)
  /-- The write of `last_activity`. -/
  | touch (source : SocketAddr) (o : SessionObj)
  /-- `listener.send_to`. -/
  | forward (source : SocketAddr) (o : SessionObj)
  deriving DecidableEq

/-- A response being handled. -/
structure Response where
  sessionId : UInt64
  seq : UInt32
  payload : List UInt8
  pc : ResponsePc
  deriving DecidableEq

/-- The client and its tasks.  `sweeping` holds the clock reading of a sweep between its two
halves. -/
structure State where
  cl : Client
  sending : Option Sending
  responses : Responder → Option Response
  sweeping : Option ℕ
  stopped : Bool

/-- One move of the system. -/
inductive Event where
  | sourceSends (source : SocketAddr) (payload : List UInt8)
  | listener (now : ℕ) (random : UInt32) (connected sendOk : Bool)
  | udpArrives (i : SenderId) (data : List UInt8)
  | frameBegins (c : ConnId)
  | frameEnds (c : ConnId) (data : List UInt8)
  | readerFails (c : ConnId)
  | readerCancelled (c : ConnId)
  | cleanup (c : ConnId)
  | responder (t : Responder) (now : ℕ) (sendOk : Bool)
  | sweepUdp (now : ℕ)
  | sweepTcp
  | stop
  deriving DecidableEq

namespace State

/-- Set the response a task is handling. -/
def setResponse (s : State) (t : Responder) (r : Option Response) : State :=
  { s with responses := Function.update s.responses t r }

end State

/-! ### The step function -/

/-- The next section of `handle_packet`. -/
def stepListener (s : State) (h : Sending) (now : ℕ) (random : UInt32)
    (connected sendOk : Bool) : State × List Obs :=
  let goto (cl : Client) (pc : SendPc) : State :=
    { s with cl := cl, sending := some { h with pc := pc } }
  match h.pc with
  | .lookup =>
      match s.cl.udpSessions h.source with
      | some o => (goto s.cl (.number o), [])
      | none => (goto s.cl .create, [])
  | .create =>
      match s.cl.createUdpSession h.source random now with
      | (cl, o, true) =>
          (goto cl (.number o), [.created o (cl.heap o).sessionId h.source])
      | (cl, o, false) => (goto cl (.number o), [])
  | .number o =>
      (goto (s.cl.takeSeq o).2 (.touch o (s.cl.takeSeq o).1),
        [.numbered o (s.cl.takeSeq o).1 h.payload])
  | .touch o seq =>
      (goto (s.cl.touch o now)
        (.udp o seq (List.range (addressesOf .udp s.cl.cfg.servers).length)), [])
  | .udp o seq [] => (goto s.cl (.tcp o seq (addressesOf .tcp s.cl.cfg.servers)), [])
  | .udp o seq (i :: senders) =>
      (goto s.cl (.udp o seq senders),
        if sendOk then [.sentUdp i (s.cl.udpPacket o seq h.payload)] else [])
  | .tcp _ _ [] => ({ s with sending := none }, [])
  | .tcp o seq (server :: servers) =>
      match s.cl.tcpSessions (h.source, server) with
      | some c => (goto s.cl (.tcpTouch o seq c servers), [])
      | none => (goto s.cl (.tcpCreate o seq server servers), [])
  | .tcpCreate o seq server servers =>
      match s.cl.createTcpSession h.source server now connected with
      | (cl, some (c, true)) =>
          (goto cl (.tcpTouch o seq c servers), [.connected c h.source server])
      | (cl, some (c, false)) => (goto cl (.tcpTouch o seq c servers), [])
      | (cl, none) => (goto cl (.tcp o seq servers), [])
  | .tcpTouch o seq c servers => (goto (s.cl.touchTcp c now) (.tcpSend o seq c servers), [])
  | .tcpSend o seq c servers =>
      match s.cl.tcpFrameFor o seq h.payload with
      | .ok frame =>
          (goto s.cl (.tcp o seq servers), if sendOk then [.sentTcp c frame] else [])
      | .error _ => (goto s.cl (.tcp o seq servers), [])

/-- The next section of `process_udp_response` or `process_tcp_response`. -/
def stepResponder (s : State) (t : Responder) (r : Response) (now : ℕ) (sendOk : Bool) :
    State × List Obs :=
  let goto (cl : Client) (pc : ResponsePc) : State :=
    { s with cl := cl }.setResponse t (some { r with pc := pc })
  let finish (cl : Client) : State := { s with cl := cl }.setResponse t none
  match r.pc with
  | .lookupAddr =>
      match s.cl.udpSessionAddrs r.sessionId with
      | some source => (goto s.cl (.lookupSession source), [])
      | none => (finish s.cl, [])
  | .lookupSession source =>
      match s.cl.udpSessions source with
      | some o => (goto s.cl (.check source o), [])
      | none => (finish s.cl, [])
  | .check source o =>
      match s.cl.checkResponse o r.seq with
      | (true, cl) => (finish cl, [.checked o r.seq true])
      | (false, cl) => (goto cl (.touch source o), [.checked o r.seq false])
  | .touch source o => (goto (s.cl.touch o now) (.forward source o), [])
  | .forward source o => (finish s.cl, [.forwarded o r.seq source r.payload sendOk])

/-- One move; `none` where the event cannot occur. -/
def step (s : State) : Event → Option (State × List Obs)
  | .sourceSends source payload =>
      if s.sending = none then
        some ({ s with sending := some ⟨source, payload, .lookup⟩ }, [.received source payload])
      else none
  | .listener now random connected sendOk =>
      match s.sending with
      | none => none
      | some h => some (stepListener s h now random connected sendOk)
  | .udpArrives i data =>
      if i < (addressesOf .udp s.cl.cfg.servers).length ∧ s.responses (.udp i) = none then
        match decodeUdp data with
        | .error _ => some (s, [])
        | .ok (sessionId, seq, payload) =>
            some (s.setResponse (.udp i) (some ⟨sessionId, seq, payload, .lookupAddr⟩), [])
      else none
  | .frameBegins c =>
      if (s.cl.readers c).pc = .readLength ∧ s.responses (.tcp c) = none then
        some ({ s with cl := s.cl.setReader c .readBody }, [])
      else none
  | .frameEnds c data =>
      if (s.cl.readers c).pc = .readBody ∧ s.responses (.tcp c) = none then
        match decodeTcp data with
        | .error _ => some ({ s with cl := s.cl.setReader c .readLength }, [])
        | .ok (sessionId, seq, payload) =>
            some ({ s with cl := s.cl.setReader c .readLength }.setResponse (.tcp c)
              (some ⟨sessionId, seq, payload, .lookupSession (s.cl.readers c).source⟩), [])
      else none
  | .readerFails c =>
      -- end of stream, a read error, or a prefix that is zero
      if ((s.cl.readers c).pc = .readLength ∨ (s.cl.readers c).pc = .readBody) ∧
          s.responses (.tcp c) = none then
        some ({ s with cl := s.cl.setReader c .ended }, [])
      else none
  | .readerCancelled c =>
      -- a reader inside a frame does not see the cancellation
      if (s.cl.readers c).pc = .readLength ∧ s.responses (.tcp c) = none ∧
          ((s.cl.tcpHeap c).cancelled = true ∨ s.stopped = true) then
        some ({ s with cl := s.cl.setReader c .done }, [])
      else none
  | .cleanup c =>
      if (s.cl.readers c).pc = .ended then
        some ({ s with
          cl := (s.cl.cleanupTcpSession (s.cl.readers c).key).setReader c .done }, [])
      else none
  | .responder t now sendOk =>
      match s.responses t with
      | none => none
      | some r => some (stepResponder s t r now sendOk)
  | .sweepUdp now =>
      if s.sweeping = none then
        some ({ s with cl := s.cl.cleanupExpiredUdp now, sweeping := some now }, [])
      else none
  | .sweepTcp =>
      match s.sweeping with
      | none => none
      | some now => some ({ s with cl := s.cl.cleanupExpiredTcp now, sweeping := none }, [])
  | .stop => some ({ s with stopped := true }, [])

/-- The client of a configuration and a random counter start, before any datagram. -/
def machine (cfg : ClientConfig) (counter : UInt64) : Machine State Event Obs where
  init := ⟨new cfg counter, none, fun _ => none, none, false⟩
  step := step

/-! ### The step relation -/

/-- One rule for each section. -/
inductive Act (s : State) : Event → State → List Obs → Prop
  | sourceSends {source : SocketAddr} {payload : List UInt8} : s.sending = none →
      Act s (.sourceSends source payload)
        { s with sending := some ⟨source, payload, .lookup⟩ } [.received source payload]
  | lookupHit {h : Sending} {o : SessionObj} {now : ℕ} {random : UInt32} {b b' : Bool} :
      s.sending = some h → h.pc = .lookup → s.cl.udpSessions h.source = some o →
      Act s (.listener now random b b') { s with sending := some { h with pc := .number o } } []
  | lookupMiss {h : Sending} {now : ℕ} {random : UInt32} {b b' : Bool} :
      s.sending = some h → h.pc = .lookup → s.cl.udpSessions h.source = none →
      Act s (.listener now random b b') { s with sending := some { h with pc := .create } } []
  | createHit {h : Sending} {o : SessionObj} {now : ℕ} {random : UInt32} {b b' : Bool} :
      s.sending = some h → h.pc = .create → s.cl.udpSessions h.source = some o →
      Act s (.listener now random b b') { s with sending := some { h with pc := .number o } } []
  | createNew {h : Sending} {now : ℕ} {random : UInt32} {b b' : Bool} :
      s.sending = some h → h.pc = .create → s.cl.udpSessions h.source = none →
      Act s (.listener now random b b')
        { s with
          cl := (s.cl.createUdpSession h.source random now).1
          sending := some { h with pc := .number s.cl.next } }
        [.created s.cl.next (allocateSessionId s.cl.sessionIdCounter) h.source]
  | number {h : Sending} {o : SessionObj} {now : ℕ} {random : UInt32} {b b' : Bool} :
      s.sending = some h → h.pc = .number o →
      Act s (.listener now random b b')
        { s with
          cl := (s.cl.takeSeq o).2
          sending := some { h with pc := .touch o (s.cl.heap o).seq } }
        [.numbered o (s.cl.heap o).seq h.payload]
  | touch {h : Sending} {o : SessionObj} {seq : UInt32} {now : ℕ} {random : UInt32}
      {b b' : Bool} :
      s.sending = some h → h.pc = .touch o seq →
      Act s (.listener now random b b')
        { s with
          cl := s.cl.touch o now
          sending := some { h with
            pc := .udp o seq (List.range (addressesOf .udp s.cl.cfg.servers).length) } } []
  | udpDone {h : Sending} {o : SessionObj} {seq : UInt32} {now : ℕ} {random : UInt32}
      {b b' : Bool} :
      s.sending = some h → h.pc = .udp o seq [] →
      Act s (.listener now random b b')
        { s with
          sending := some { h with
            pc := .tcp o seq (addressesOf .tcp s.cl.cfg.servers) } } []
  | udpSend {h : Sending} {o : SessionObj} {seq : UInt32} {i : SenderId}
      {senders : List SenderId} {now : ℕ} {random : UInt32} {b b' : Bool} :
      s.sending = some h → h.pc = .udp o seq (i :: senders) →
      Act s (.listener now random b b')
        { s with sending := some { h with pc := .udp o seq senders } }
        (if b' then [.sentUdp i (s.cl.udpPacket o seq h.payload)] else [])
  | tcpDone {h : Sending} {o : SessionObj} {seq : UInt32} {now : ℕ} {random : UInt32}
      {b b' : Bool} :
      s.sending = some h → h.pc = .tcp o seq [] →
      Act s (.listener now random b b') { s with sending := none } []
  | tcpHit {h : Sending} {o : SessionObj} {seq : UInt32} {server : String}
      {servers : List String} {c : ConnId} {now : ℕ} {random : UInt32} {b b' : Bool} :
      s.sending = some h → h.pc = .tcp o seq (server :: servers) →
      s.cl.tcpSessions (h.source, server) = some c →
      Act s (.listener now random b b')
        { s with sending := some { h with pc := .tcpTouch o seq c servers } } []
  | tcpMiss {h : Sending} {o : SessionObj} {seq : UInt32} {server : String}
      {servers : List String} {now : ℕ} {random : UInt32} {b b' : Bool} :
      s.sending = some h → h.pc = .tcp o seq (server :: servers) →
      s.cl.tcpSessions (h.source, server) = none →
      Act s (.listener now random b b')
        { s with sending := some { h with pc := .tcpCreate o seq server servers } } []
  | tcpCreateHit {h : Sending} {o : SessionObj} {seq : UInt32} {server : String}
      {servers : List String} {c : ConnId} {now : ℕ} {random : UInt32} {b b' : Bool} :
      s.sending = some h → h.pc = .tcpCreate o seq server servers →
      s.cl.tcpSessions (h.source, server) = some c →
      Act s (.listener now random b b')
        { s with sending := some { h with pc := .tcpTouch o seq c servers } } []
  | tcpCreateFail {h : Sending} {o : SessionObj} {seq : UInt32} {server : String}
      {servers : List String} {now : ℕ} {random : UInt32} {b' : Bool} :
      s.sending = some h → h.pc = .tcpCreate o seq server servers →
      s.cl.tcpSessions (h.source, server) = none →
      Act s (.listener now random false b')
        { s with sending := some { h with pc := .tcp o seq servers } } []
  | tcpCreateNew {h : Sending} {o : SessionObj} {seq : UInt32} {server : String}
      {servers : List String} {now : ℕ} {random : UInt32} {b' : Bool} :
      s.sending = some h → h.pc = .tcpCreate o seq server servers →
      s.cl.tcpSessions (h.source, server) = none →
      Act s (.listener now random true b')
        { s with
          cl := (s.cl.createTcpSession h.source server now true).1
          sending := some { h with pc := .tcpTouch o seq s.cl.nextConn servers } }
        [.connected s.cl.nextConn h.source server]
  | tcpTouch {h : Sending} {o : SessionObj} {seq : UInt32} {c : ConnId}
      {servers : List String} {now : ℕ} {random : UInt32} {b b' : Bool} :
      s.sending = some h → h.pc = .tcpTouch o seq c servers →
      Act s (.listener now random b b')
        { s with
          cl := s.cl.touchTcp c now
          sending := some { h with pc := .tcpSend o seq c servers } } []
  | tcpSend {h : Sending} {o : SessionObj} {seq : UInt32} {c : ConnId} {servers : List String}
      {frame : List UInt8} {now : ℕ} {random : UInt32} {b b' : Bool} :
      s.sending = some h → h.pc = .tcpSend o seq c servers →
      s.cl.tcpFrameFor o seq h.payload = .ok frame →
      Act s (.listener now random b b')
        { s with sending := some { h with pc := .tcp o seq servers } }
        (if b' then [.sentTcp c frame] else [])
  | tcpTooLarge {h : Sending} {o : SessionObj} {seq : UInt32} {c : ConnId}
      {servers : List String} {e : SendError} {now : ℕ} {random : UInt32} {b b' : Bool} :
      s.sending = some h → h.pc = .tcpSend o seq c servers →
      s.cl.tcpFrameFor o seq h.payload = .error e →
      Act s (.listener now random b b')
        { s with sending := some { h with pc := .tcp o seq servers } } []
  | udpUndecodable {i : SenderId} {data : List UInt8} : Act s (.udpArrives i data) s []
  | udpArrives {i : SenderId} {data : List UInt8} {sid : UInt64} {seq : UInt32}
      {payload : List UInt8} :
      s.responses (.udp i) = none → decodePacket data = .ok (sid, seq, payload) →
      Act s (.udpArrives i data)
        (s.setResponse (.udp i) (some ⟨sid, seq, payload, .lookupAddr⟩)) []
  | frameBegins {c : ConnId} :
      (s.cl.readers c).pc = .readLength → s.responses (.tcp c) = none →
      Act s (.frameBegins c) { s with cl := s.cl.setReader c .readBody } []
  | frameUndecodable {c : ConnId} {data : List UInt8} : (s.cl.readers c).pc = .readBody →
      Act s (.frameEnds c data) { s with cl := s.cl.setReader c .readLength } []
  | frameEnds {c : ConnId} {data : List UInt8} {sid : UInt64} {seq : UInt32}
      {payload : List UInt8} :
      (s.cl.readers c).pc = .readBody → s.responses (.tcp c) = none →
      decodePacket data = .ok (sid, seq, payload) →
      Act s (.frameEnds c data)
        ({ s with cl := s.cl.setReader c .readLength }.setResponse (.tcp c)
          (some ⟨sid, seq, payload, .lookupSession (s.cl.readers c).source⟩)) []
  | readerFails {c : ConnId} :
      ((s.cl.readers c).pc = .readLength ∨ (s.cl.readers c).pc = .readBody) →
      s.responses (.tcp c) = none →
      Act s (.readerFails c) { s with cl := s.cl.setReader c .ended } []
  | readerCancelled {c : ConnId} :
      (s.cl.readers c).pc = .readLength → s.responses (.tcp c) = none →
      ((s.cl.tcpHeap c).cancelled = true ∨ s.stopped = true) →
      Act s (.readerCancelled c) { s with cl := s.cl.setReader c .done } []
  | cleanup {c : ConnId} : (s.cl.readers c).pc = .ended →
      Act s (.cleanup c)
        { s with cl := (s.cl.cleanupTcpSession (s.cl.readers c).key).setReader c .done } []
  | addrHit {t : Responder} {r : Response} {source : SocketAddr} {now : ℕ} {b : Bool} :
      s.responses t = some r → r.pc = .lookupAddr →
      s.cl.udpSessionAddrs r.sessionId = some source →
      Act s (.responder t now b)
        (s.setResponse t (some { r with pc := .lookupSession source })) []
  | addrMiss {t : Responder} {r : Response} {now : ℕ} {b : Bool} :
      s.responses t = some r → r.pc = .lookupAddr →
      s.cl.udpSessionAddrs r.sessionId = none →
      Act s (.responder t now b) (s.setResponse t none) []
  | sessionHit {t : Responder} {r : Response} {source : SocketAddr} {o : SessionObj} {now : ℕ}
      {b : Bool} :
      s.responses t = some r → r.pc = .lookupSession source →
      s.cl.udpSessions source = some o →
      Act s (.responder t now b) (s.setResponse t (some { r with pc := .check source o })) []
  | sessionMiss {t : Responder} {r : Response} {source : SocketAddr} {now : ℕ} {b : Bool} :
      s.responses t = some r → r.pc = .lookupSession source →
      s.cl.udpSessions source = none →
      Act s (.responder t now b) (s.setResponse t none) []
  | checkDup {t : Responder} {r : Response} {source : SocketAddr} {o : SessionObj} {now : ℕ}
      {b : Bool} :
      s.responses t = some r → r.pc = .check source o →
      (s.cl.checkResponse o r.seq).1 = true →
      Act s (.responder t now b)
        ({ s with cl := (s.cl.checkResponse o r.seq).2 }.setResponse t none)
        [.checked o r.seq true]
  | checkNew {t : Responder} {r : Response} {source : SocketAddr} {o : SessionObj} {now : ℕ}
      {b : Bool} :
      s.responses t = some r → r.pc = .check source o →
      (s.cl.checkResponse o r.seq).1 = false →
      Act s (.responder t now b)
        ({ s with cl := (s.cl.checkResponse o r.seq).2 }.setResponse t
          (some { r with pc := .touch source o }))
        [.checked o r.seq false]
  | responseTouch {t : Responder} {r : Response} {source : SocketAddr} {o : SessionObj}
      {now : ℕ} {b : Bool} :
      s.responses t = some r → r.pc = .touch source o →
      Act s (.responder t now b)
        ({ s with cl := s.cl.touch o now }.setResponse t
          (some { r with pc := .forward source o })) []
  | forward {t : Responder} {r : Response} {source : SocketAddr} {o : SessionObj} {now : ℕ}
      {b : Bool} :
      s.responses t = some r → r.pc = .forward source o →
      Act s (.responder t now b) (s.setResponse t none)
        [.forwarded o r.seq source r.payload b]
  | sweepUdp {now : ℕ} : s.sweeping = none →
      Act s (.sweepUdp now)
        { s with cl := s.cl.cleanupExpiredUdp now, sweeping := some now } []
  | sweepTcp {now : ℕ} : s.sweeping = some now →
      Act s .sweepTcp { s with cl := s.cl.cleanupExpiredTcp now, sweeping := none } []
  | stop : Act s .stop { s with stopped := true } []

theorem act_of_stepListener {s s' : State} {h : Sending} {now : ℕ} {random : UInt32}
    {b b' : Bool} {obs : List Obs} (ht : s.sending = some h)
    (hs : stepListener s h now random b b' = (s', obs)) :
    Act s (.listener now random b b') s' obs := by
  unfold stepListener at hs
  dsimp only at hs
  split at hs
  · next hpc =>
      split at hs <;> obtain ⟨rfl, rfl⟩ := Prod.mk.inj hs
      · next hsess => exact .lookupHit ht hpc hsess
      · next hsess => exact .lookupMiss ht hpc hsess
  · next hpc =>
      cases hsess : s.cl.udpSessions h.source with
      | some o =>
          simp only [createUdpSession, hsess] at hs
          obtain ⟨rfl, rfl⟩ := Prod.mk.inj hs
          exact .createHit ht hpc hsess
      | none =>
          have hnew : s.cl.createUdpSession h.source random now =
              ((s.cl.createUdpSession h.source random now).1, s.cl.next, true) := by
            simp only [createUdpSession, hsess]
          have hid : (((s.cl.createUdpSession h.source random now).1).heap s.cl.next).sessionId =
              allocateSessionId s.cl.sessionIdCounter := by
            simp only [createUdpSession, hsess, Function.update_self, UdpSession.new]
          rw [hnew] at hs
          obtain ⟨rfl, rfl⟩ := Prod.mk.inj hs
          rw [hid]
          exact .createNew ht hpc hsess
  · next hpc =>
      obtain ⟨rfl, rfl⟩ := Prod.mk.inj hs
      exact .number ht hpc
  · next hpc =>
      obtain ⟨rfl, rfl⟩ := Prod.mk.inj hs
      exact .touch ht hpc
  · next hpc =>
      obtain ⟨rfl, rfl⟩ := Prod.mk.inj hs
      exact .udpDone ht hpc
  · next hpc =>
      obtain ⟨rfl, rfl⟩ := Prod.mk.inj hs
      exact .udpSend ht hpc
  · next hpc =>
      obtain ⟨rfl, rfl⟩ := Prod.mk.inj hs
      exact .tcpDone ht hpc
  · next hpc =>
      split at hs <;> obtain ⟨rfl, rfl⟩ := Prod.mk.inj hs
      · next hsess => exact .tcpHit ht hpc hsess
      · next hsess => exact .tcpMiss ht hpc hsess
  · next o seq server servers hpc =>
      cases hsess : s.cl.tcpSessions (h.source, server) with
      | some c =>
          simp only [createTcpSession, hsess] at hs
          obtain ⟨rfl, rfl⟩ := Prod.mk.inj hs
          exact .tcpCreateHit ht hpc hsess
      | none =>
          cases b with
          | false =>
              simp only [createTcpSession, hsess] at hs
              obtain ⟨rfl, rfl⟩ := Prod.mk.inj hs
              exact .tcpCreateFail ht hpc hsess
          | true =>
              have hnew : s.cl.createTcpSession h.source server now true =
                  ((s.cl.createTcpSession h.source server now true).1,
                    some (s.cl.nextConn, true)) := by
                simp only [createTcpSession, hsess, if_true]
              rw [hnew] at hs
              obtain ⟨rfl, rfl⟩ := Prod.mk.inj hs
              exact .tcpCreateNew ht hpc hsess
  · next hpc =>
      obtain ⟨rfl, rfl⟩ := Prod.mk.inj hs
      exact .tcpTouch ht hpc
  · next hpc =>
      split at hs <;> obtain ⟨rfl, rfl⟩ := Prod.mk.inj hs
      · next hframe => exact .tcpSend ht hpc hframe
      · next hframe => exact .tcpTooLarge ht hpc hframe

theorem act_of_stepResponder {s s' : State} {t : Responder} {r : Response} {now : ℕ} {b : Bool}
    {obs : List Obs} (ht : s.responses t = some r)
    (hs : stepResponder s t r now b = (s', obs)) : Act s (.responder t now b) s' obs := by
  unfold stepResponder at hs
  dsimp only at hs
  split at hs
  · next hpc =>
      split at hs <;> obtain ⟨rfl, rfl⟩ := Prod.mk.inj hs
      · next haddr => exact .addrHit ht hpc haddr
      · next haddr => exact .addrMiss ht hpc haddr
  · next source hpc =>
      split at hs <;> obtain ⟨rfl, rfl⟩ := Prod.mk.inj hs
      · next hsess => exact .sessionHit ht hpc hsess
      · next hsess => exact .sessionMiss ht hpc hsess
  · next source o hpc =>
      split at hs
      · next cl hd =>
          obtain ⟨rfl, rfl⟩ := Prod.mk.inj hs
          have hcl : cl = (s.cl.checkResponse o r.seq).2 := by rw [hd]
          rw [hcl]
          exact .checkDup ht hpc (by rw [hd])
      · next cl hd =>
          obtain ⟨rfl, rfl⟩ := Prod.mk.inj hs
          have hcl : cl = (s.cl.checkResponse o r.seq).2 := by rw [hd]
          rw [hcl]
          exact .checkNew ht hpc (by rw [hd])
  · next hpc =>
      obtain ⟨rfl, rfl⟩ := Prod.mk.inj hs
      exact .responseTouch ht hpc
  · next hpc =>
      obtain ⟨rfl, rfl⟩ := Prod.mk.inj hs
      exact .forward ht hpc

/-- **Inversion.**  Every move of the step function is an instance of one rule. -/
theorem act_of_step {s s' : State} {e : Event} {obs : List Obs}
    (h : step s e = some (s', obs)) : Act s e s' obs := by
  cases e with
  | sourceSends source payload =>
      obtain ⟨hidle, h⟩ := Option.ite_none_right_eq_some.mp h
      obtain ⟨rfl, rfl⟩ := Prod.mk.inj (Option.some.inj h)
      exact .sourceSends hidle
  | listener now random b b' =>
      simp only [step] at h
      split at h
      · exact absurd h (by simp)
      · next hd ht => exact act_of_stepListener ht (Option.some.inj h)
  | udpArrives i data =>
      obtain ⟨hidle, h⟩ := Option.ite_none_right_eq_some.mp h
      split at h
      · obtain ⟨rfl, rfl⟩ := Prod.mk.inj (Option.some.inj h)
        exact .udpUndecodable
      · next hdec =>
          obtain ⟨rfl, rfl⟩ := Prod.mk.inj (Option.some.inj h)
          exact .udpArrives hidle.2 hdec
  | frameBegins c =>
      obtain ⟨hc, h⟩ := Option.ite_none_right_eq_some.mp h
      obtain ⟨rfl, rfl⟩ := Prod.mk.inj (Option.some.inj h)
      exact .frameBegins hc.1 hc.2
  | frameEnds c data =>
      obtain ⟨hc, h⟩ := Option.ite_none_right_eq_some.mp h
      split at h
      · obtain ⟨rfl, rfl⟩ := Prod.mk.inj (Option.some.inj h)
        exact .frameUndecodable hc.1
      · next hdec =>
          obtain ⟨rfl, rfl⟩ := Prod.mk.inj (Option.some.inj h)
          exact .frameEnds hc.1 hc.2 hdec
  | readerFails c =>
      obtain ⟨hc, h⟩ := Option.ite_none_right_eq_some.mp h
      obtain ⟨rfl, rfl⟩ := Prod.mk.inj (Option.some.inj h)
      exact .readerFails hc.1 hc.2
  | readerCancelled c =>
      obtain ⟨hc, h⟩ := Option.ite_none_right_eq_some.mp h
      obtain ⟨rfl, rfl⟩ := Prod.mk.inj (Option.some.inj h)
      exact .readerCancelled hc.1 hc.2.1 hc.2.2
  | cleanup c =>
      obtain ⟨hc, h⟩ := Option.ite_none_right_eq_some.mp h
      obtain ⟨rfl, rfl⟩ := Prod.mk.inj (Option.some.inj h)
      exact .cleanup hc
  | responder t now b =>
      simp only [step] at h
      split at h
      · exact absurd h (by simp)
      · next r ht => exact act_of_stepResponder ht (Option.some.inj h)
  | sweepUdp now =>
      obtain ⟨hidle, h⟩ := Option.ite_none_right_eq_some.mp h
      obtain ⟨rfl, rfl⟩ := Prod.mk.inj (Option.some.inj h)
      exact .sweepUdp hidle
  | sweepTcp =>
      simp only [step] at h
      split at h
      · exact absurd h (by simp)
      · next now hs =>
          obtain ⟨rfl, rfl⟩ := Prod.mk.inj (Option.some.inj h)
          exact .sweepTcp hs
  | stop =>
      obtain ⟨rfl, rfl⟩ := Prod.mk.inj (Option.some.inj h)
      exact .stop

theorem act_of_machine {cfg : ClientConfig} {counter : UInt64} {s s' : State} {e : Event}
    {obs : List Obs} (h : (machine cfg counter).step s e = some (s', obs)) : Act s e s' obs :=
  act_of_step h

/-- A configuration to run: one server reached over UDP and over TCP. -/
def demoConfig : ClientConfig := ⟨[⟨"127.0.0.1:1", .udp⟩, ⟨"127.0.0.1:2", .tcp⟩], 60⟩

/-- A datagram of a source is sent on both paths from its arrival to the last frame; it takes one
step less for each session that exists already. -/
def sendDatagram (source : SocketAddr) (now steps : ℕ) : List Event :=
  .sourceSends source [1] :: List.replicate steps (.listener now 0 true true)

end Fproxy.Client
