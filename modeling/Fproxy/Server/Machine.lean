import Fproxy.Library.Runs
import Fproxy.Server.State

/-!
# The server as interleaved tasks

Every UDP listener, every TCP connection and every target session has a task; between two of its
lock-protected sections any other task may move.  A task is a program counter, and an event names
the task that moves next and whatever the environment decides for that section: the clock reading
of `Instant::now`, whether `bind` and `connect` succeed, whether a send succeeds.

* `step` — the executable step function.
* `Act` — the same as a relation with one rule for each section; `act_of_step` is the inversion
  lemma all invariants start from.

A stopped server may still finish what it has begun, since `select!` is free to take the other
branch, so `stop` only raises the flag.
-/

namespace Fproxy.Server

open Fproxy.Protocol Fproxy.TcpFraming Fproxy.Runs

/-! ### Tasks -/

/-- A task that handles packets: `handle_udp_listener` or `handle_tcp_conn`. -/
inductive Task where
  | listener (l : ListenerId)
  | conn (c : ConnId)
  deriving DecidableEq

/-- How a packet came in. -/
inductive Source where
  | udp (l : ListenerId) (addr : SocketAddr)
  | tcp (c : ConnId)
  deriving DecidableEq

/-- The task that receives from a source. -/
def Source.task : Source → Task
  | .udp l _ => .listener l
  | .tcp c => .conn c

/-- The next section of `handle_udp_packet` or `handle_tcp_packet`. -/
inductive HandlerPc where
  /-- The read-locked check of `get_or_create_session`. -/
  | lookup
  /-- Its write-locked check and creation. -/
  | create
  /-- The write of `last_activity`. -/
  | touch (o : ObjId)
  /-- The call of `is_duplicate`. -/
  | check (o : ObjId)
  /-- The first section of `add_tcp_path`. -/
  | track (o : ObjId)
  /-- `add_udp_path`, or the second section of `add_tcp_path`. -/
  | register (o : ObjId)
  /-- The send on the target socket. -/
  | forward (o : ObjId)
  deriving DecidableEq

/-- A packet being handled. -/
structure Handler where
  source : Source
  sessionId : UInt64
  seq : UInt32
  payload : List UInt8
  pc : HandlerPc
  deriving DecidableEq

/-- The life of `handle_tcp_conn`. -/
inductive ConnState where
  | unopened
  | open
  /-- The read loop has ended; `cleanup_tcp_conn` is next. -/
  | ended
  /-- `cleanup_tcp_conn` has removed this entry of `tcp_conn_to_session`. -/
  | untracked (sessionId : Option UInt64)
  /-- `cleanup_tcp_conn` has run. -/
  | closed
  deriving DecidableEq

/-- The server and its tasks. -/
structure State where
  srv : Server
  handlers : Task → Option Handler
  conns : ConnId → ConnState
  stopped : Bool

/-- One move of the system. -/
inductive Event where
  | udpArrives (l : ListenerId) (addr : SocketAddr) (data : List UInt8)
  | accept (c : ConnId)
  | tcpArrives (c : ConnId) (data : List UInt8)
  | handler (t : Task) (now : ℕ) (connected sendOk : Bool)
  | connEnds (c : ConnId)
  | cleanup (c : ConnId)
  | targetReads (o : ObjId) (payload : List UInt8)
  | targetFails (o : ObjId)
  | receiverCancelled (o : ObjId)
  | receiver (o : ObjId) (now : ℕ) (sendOk : Bool)
  | sweep (now : ℕ)
  | stop
  deriving DecidableEq

namespace State

/-- Set the packet a task is handling. -/
def setHandler (s : State) (t : Task) (h : Option Handler) : State :=
  { s with handlers := Function.update s.handlers t h }

/-- Set the state of a connection. -/
def setConn (s : State) (c : ConnId) (k : ConnState) : State :=
  { s with conns := Function.update s.conns c k }

/-- Set where a response task stands. -/
def setReceiver (s : State) (o : ObjId) (pc : ReceiverPc) : State :=
  { s with srv := { s.srv with receivers := Function.update s.srv.receivers o pc } }

end State

/-! ### The step function -/

/-- A packet arrives at an idle task; one that does not decode is dropped. -/
def arrive (s : State) (source : Source) (data : List UInt8) : Option (State × List Obs) :=
  match s.handlers source.task with
  | some _ => none
  | none =>
      match decodePacket data with
      | .error _ => some (s, [])
      | .ok (sessionId, seq, payload) =>
          some (s.setHandler source.task (some ⟨source, sessionId, seq, payload, .lookup⟩), [])

/-- The next section of a packet handler. -/
def stepHandler (s : State) (t : Task) (h : Handler) (now : ℕ) (connected sendOk : Bool) :
    State × List Obs :=
  let goto (srv : Server) (pc : HandlerPc) : State :=
    { s with srv := srv }.setHandler t (some { h with pc := pc })
  let finish (srv : Server) : State := { s with srv := srv }.setHandler t none
  match h.pc with
  | .lookup =>
      match s.srv.sessions h.sessionId with
      | some o => (goto s.srv (.touch o), [])
      | none => (goto s.srv .create, [])
  | .create =>
      match s.srv.createSession h.sessionId now connected with
      | (srv, some (o, _)) => (goto srv (.touch o), [])
      | (srv, none) => (finish srv, [])
  | .touch o => (goto (s.srv.touch o now) (.check o), [])
  | .check o =>
      match s.srv.checkDuplicate o h.seq with
      | (true, srv) => (finish srv, [.checked o h.seq h.payload true])
      | (false, srv) =>
          match h.source with
          | .udp _ _ => (goto srv (.register o), [.checked o h.seq h.payload false])
          | .tcp _ => (goto srv (.track o), [.checked o h.seq h.payload false])
  | .track o =>
      match h.source with
      | .udp _ _ => (goto s.srv (.register o), [])
      | .tcp c => (goto (s.srv.trackTcpConn h.sessionId c) (.register o), [])
  | .register o =>
      match h.source with
      | .udp l addr => (goto (s.srv.addUdpPath h.sessionId addr l) (.forward o), [])
      | .tcp c => (goto (s.srv.registerTcpPath h.sessionId c c) (.forward o), [])
  | .forward o => (finish s.srv, [.forwarded o h.sessionId h.seq h.payload sendOk])

/-- The next section of `send_response_to_all_paths` in the response task of an object. -/
def stepReceiver (s : State) (o : ObjId) (now : ℕ) (sendOk : Bool) :
    Option (State × List Obs) :=
  let sessionId := (s.srv.heap o).sessionId
  match s.srv.receivers o with
  | .touch payload =>
      let srv := match s.srv.sessions sessionId with
        | some o' => s.srv.touch o' now
        | none => s.srv
      some ({ s with srv := srv }.setReceiver o (.number payload), [])
  | .number payload =>
      match s.srv.sessions sessionId with
      | some o' =>
          let r := s.srv.takeResponseSeq o'
          some ({ s with srv := r.2 }.setReceiver o (.paths payload r.1), [])
      | none => some (s.setReceiver o .recv, [])
  | .paths payload seq =>
      match s.srv.clientPaths sessionId with
      | none => some (s.setReceiver o .recv, [])
      | some [] => some (s.setReceiver o .recv, [])
      | some (p :: ps) => some (s.setReceiver o (.sending payload seq (p :: ps)), [])
  | .sending _ _ [] => some (s.setReceiver o .recv, [])
  | .sending payload seq (p :: ps) =>
      some (s.setReceiver o (.sending payload seq ps),
        if sendOk then [sendOnPath sessionId seq payload p] else [])
  | _ => none

/-- One move; `none` where the event cannot occur. -/
def step (s : State) : Event → Option (State × List Obs)
  | .udpArrives l addr data => arrive s (.udp l addr) data
  | .accept c => if s.conns c = .unopened then some (s.setConn c .open, []) else none
  | .tcpArrives c data => if s.conns c = .open then arrive s (.tcp c) data else none
  | .handler t now connected sendOk =>
      match s.handlers t with
      | none => none
      | some h => some (stepHandler s t h now connected sendOk)
  | .connEnds c =>
      if s.conns c = .open ∧ s.handlers (.conn c) = none then some (s.setConn c .ended, [])
      else none
  | .cleanup c =>
      match s.conns c with
      | .ended =>
          let r := s.srv.untrackTcpConn c
          some ({ s with srv := r.2 }.setConn c (.untracked r.1), [])
      | .untracked sid =>
          some ({ s with srv := s.srv.removeTcpPath sid c }.setConn c .closed, [])
      | _ => none
  | .targetReads o payload =>
      if s.srv.receivers o = .recv then
        some (s.setReceiver o (.touch payload),
          [.targetRead o (s.srv.heap o).sessionId payload])
      else none
  | .targetFails o =>
      -- both branches of the `Err` arm return
      if s.srv.receivers o = .recv then some (s.setReceiver o .done, []) else none
  | .receiverCancelled o =>
      if s.srv.receivers o = .recv ∧ ((s.srv.heap o).cancelled = true ∨ s.stopped = true) then
        some (s.setReceiver o .done, [])
      else none
  | .receiver o now sendOk => stepReceiver s o now sendOk
  | .sweep now => some ({ s with srv := s.srv.cleanupExpiredSessions now }, [])
  | .stop => some ({ s with stopped := true }, [])

/-- The server of a configuration, before any packet. -/
def machine (cfg : ServerConfig) : Machine State Event Obs where
  init := ⟨new cfg, fun _ => none, fun _ => .unopened, false⟩
  step := step

/-! ### The step relation -/

/-- The response task of an object is through with its datagram: it finds no session or no path, or
has sent on every path. -/
def State.AnswerOver (s : State) (o : ObjId) : Prop :=
  match s.srv.receivers o with
  | .number _ => s.srv.sessions (s.srv.heap o).sessionId = none
  | .paths _ _ => (s.srv.clientPaths (s.srv.heap o).sessionId).getD [] = []
  | .sending _ _ rest => rest = []
  | _ => False

/-- One rule for each section. -/
inductive Act (s : State) : Event → State → List Obs → Prop
  | undecodable {source : Source} {e : Event} {data : List UInt8} :
      s.handlers source.task = none →
      (∀ c, source = .tcp c → s.conns c = .open ∧ e = .tcpArrives c data) →
      (∀ l addr, source = .udp l addr → e = .udpArrives l addr data) → Act s e s []
  | arrive {source : Source} {e : Event} {data : List UInt8} {sid : UInt64} {seq : UInt32}
      {payload : List UInt8} :
      s.handlers source.task = none →
      (∀ c, source = .tcp c → s.conns c = .open ∧ e = .tcpArrives c data) →
      (∀ l addr, source = .udp l addr → e = .udpArrives l addr data) →
      decodePacket data = .ok (sid, seq, payload) →
      Act s e (s.setHandler source.task (some ⟨source, sid, seq, payload, .lookup⟩)) []
  | accept {c : ConnId} : s.conns c = .unopened → Act s (.accept c) (s.setConn c .open) []
  | lookupHit {t : Task} {h : Handler} {o : ObjId} {now : ℕ} {b b' : Bool} :
      s.handlers t = some h → h.pc = .lookup → s.srv.sessions h.sessionId = some o →
      Act s (.handler t now b b') (s.setHandler t (some { h with pc := .touch o })) []
  | lookupMiss {t : Task} {h : Handler} {now : ℕ} {b b' : Bool} :
      s.handlers t = some h → h.pc = .lookup → s.srv.sessions h.sessionId = none →
      Act s (.handler t now b b') (s.setHandler t (some { h with pc := .create })) []
  | createHit {t : Task} {h : Handler} {o : ObjId} {now : ℕ} {b b' : Bool} :
      s.handlers t = some h → h.pc = .create → s.srv.sessions h.sessionId = some o →
      Act s (.handler t now b b') (s.setHandler t (some { h with pc := .touch o })) []
  | createFail {t : Task} {h : Handler} {now : ℕ} {b' : Bool} :
      s.handlers t = some h → h.pc = .create → s.srv.sessions h.sessionId = none →
      Act s (.handler t now false b') (s.setHandler t none) []
  | createNew {t : Task} {h : Handler} {now : ℕ} {b' : Bool} :
      s.handlers t = some h → h.pc = .create → s.srv.sessions h.sessionId = none →
      Act s (.handler t now true b')
        ({ s with srv := (s.srv.createSession h.sessionId now true).1 }.setHandler t
          (some { h with pc := .touch s.srv.next })) []
  | touch {t : Task} {h : Handler} {o : ObjId} {now : ℕ} {b b' : Bool} :
      s.handlers t = some h → h.pc = .touch o →
      Act s (.handler t now b b')
        ({ s with srv := s.srv.touch o now }.setHandler t (some { h with pc := .check o })) []
  | checkDup {t : Task} {h : Handler} {o : ObjId} {now : ℕ} {b b' : Bool} :
      s.handlers t = some h → h.pc = .check o → (s.srv.checkDuplicate o h.seq).1 = true →
      Act s (.handler t now b b')
        ({ s with srv := (s.srv.checkDuplicate o h.seq).2 }.setHandler t none)
        [.checked o h.seq h.payload true]
  | checkNew {t : Task} {h : Handler} {o : ObjId} {pc : HandlerPc} {now : ℕ} {b b' : Bool} :
      s.handlers t = some h → h.pc = .check o → (s.srv.checkDuplicate o h.seq).1 = false →
      (pc = .register o ∧ (∃ l addr, h.source = .udp l addr) ∨
        pc = .track o ∧ ∃ c, h.source = .tcp c) →
      Act s (.handler t now b b')
        ({ s with srv := (s.srv.checkDuplicate o h.seq).2 }.setHandler t
          (some { h with pc := pc }))
        [.checked o h.seq h.payload false]
  | trackUdp {t : Task} {h : Handler} {o : ObjId} {l : ListenerId} {addr : SocketAddr} {now : ℕ}
      {b b' : Bool} :
      s.handlers t = some h → h.pc = .track o → h.source = .udp l addr →
      Act s (.handler t now b b') (s.setHandler t (some { h with pc := .register o })) []
  | track {t : Task} {h : Handler} {o : ObjId} {c : ConnId} {now : ℕ} {b b' : Bool} :
      s.handlers t = some h → h.pc = .track o → h.source = .tcp c →
      Act s (.handler t now b b')
        ({ s with srv := s.srv.trackTcpConn h.sessionId c }.setHandler t
          (some { h with pc := .register o })) []
  | registerUdp {t : Task} {h : Handler} {o : ObjId} {l : ListenerId} {addr : SocketAddr}
      {now : ℕ} {b b' : Bool} :
      s.handlers t = some h → h.pc = .register o → h.source = .udp l addr →
      Act s (.handler t now b b')
        ({ s with srv := s.srv.addUdpPath h.sessionId addr l }.setHandler t
          (some { h with pc := .forward o })) []
  | registerTcp {t : Task} {h : Handler} {o : ObjId} {c : ConnId} {now : ℕ} {b b' : Bool} :
      s.handlers t = some h → h.pc = .register o → h.source = .tcp c →
      Act s (.handler t now b b')
        ({ s with srv := s.srv.registerTcpPath h.sessionId c c }.setHandler t
          (some { h with pc := .forward o })) []
  | forward {t : Task} {h : Handler} {o : ObjId} {now : ℕ} {b b' : Bool} :
      s.handlers t = some h → h.pc = .forward o →
      Act s (.handler t now b b') (s.setHandler t none)
        [.forwarded o h.sessionId h.seq h.payload b']
  | connEnds {c : ConnId} : s.conns c = .open → s.handlers (.conn c) = none →
      Act s (.connEnds c) (s.setConn c .ended) []
  | untrack {c : ConnId} : s.conns c = .ended →
      Act s (.cleanup c)
        ({ s with srv := (s.srv.untrackTcpConn c).2 }.setConn c
          (.untracked (s.srv.tcpConnToSession c))) []
  | removePath {c : ConnId} {sid : Option UInt64} : s.conns c = .untracked sid →
      Act s (.cleanup c) ({ s with srv := s.srv.removeTcpPath sid c }.setConn c .closed) []
  | targetReads {o : ObjId} {payload : List UInt8} : s.srv.receivers o = .recv →
      Act s (.targetReads o payload) (s.setReceiver o (.touch payload))
        [.targetRead o (s.srv.heap o).sessionId payload]
  | targetFails {o : ObjId} : s.srv.receivers o = .recv →
      Act s (.targetFails o) (s.setReceiver o .done) []
  | receiverCancelled {o : ObjId} : s.srv.receivers o = .recv →
      ((s.srv.heap o).cancelled = true ∨ s.stopped = true) →
      Act s (.receiverCancelled o) (s.setReceiver o .done) []
  | responseTouch {o o' : ObjId} {payload : List UInt8} {now : ℕ} {b : Bool} :
      s.srv.receivers o = .touch payload →
      s.srv.sessions (s.srv.heap o).sessionId = some o' →
      Act s (.receiver o now b)
        ({ s with srv := s.srv.touch o' now }.setReceiver o (.number payload)) []
  | responseUntouched {o : ObjId} {payload : List UInt8} {now : ℕ} {b : Bool} :
      s.srv.receivers o = .touch payload →
      s.srv.sessions (s.srv.heap o).sessionId = none →
      Act s (.receiver o now b) (s.setReceiver o (.number payload)) []
  | responseNumber {o o' : ObjId} {payload : List UInt8} {now : ℕ} {b : Bool} :
      s.srv.receivers o = .number payload →
      s.srv.sessions (s.srv.heap o).sessionId = some o' →
      Act s (.receiver o now b)
        ({ s with srv := (s.srv.takeResponseSeq o').2 }.setReceiver o
          (.paths payload (s.srv.heap o').responseSeq)) []
  | responsePaths {o : ObjId} {payload : List UInt8} {seq : UInt32} {paths : List ClientPath}
      {now : ℕ} {b : Bool} :
      s.srv.receivers o = .paths payload seq →
      s.srv.clientPaths (s.srv.heap o).sessionId = some paths →
      Act s (.receiver o now b) (s.setReceiver o (.sending payload seq paths)) []
  | responseSend {o : ObjId} {payload : List UInt8} {seq : UInt32} {p : ClientPath}
      {ps : List ClientPath} {now : ℕ} {b : Bool} :
      s.srv.receivers o = .sending payload seq (p :: ps) →
      Act s (.receiver o now b) (s.setReceiver o (.sending payload seq ps))
        (if b then [sendOnPath (s.srv.heap o).sessionId seq payload p] else [])
  | responseOver {o : ObjId} {now : ℕ} {b : Bool} :
      s.AnswerOver o →
      Act s (.receiver o now b) (s.setReceiver o .recv) []
  | sweep {now : ℕ} :
      Act s (.sweep now) { s with srv := s.srv.cleanupExpiredSessions now } []
  | stop : Act s .stop { s with stopped := true } []

/-- Only the last section of a handler sends to a target. -/
theorem Act.of_forwarded {s s' : State} {e : Event} {obs : List Obs} (ha : Act s e s' obs)
    {o : ObjId} {sid : UInt64} {seq : UInt32} {payload : List UInt8} {ok : Bool}
    (hm : .forwarded o sid seq payload ok ∈ obs) :
    ∃ t h now b, e = .handler t now b ok ∧ s.handlers t = some h ∧ h.pc = .forward o ∧
      h.sessionId = sid ∧ h.seq = seq ∧ h.payload = payload := by
  cases ha with
  | @forward t h o' now b b' ht hpc =>
      obtain ⟨rfl, rfl, rfl, rfl, rfl⟩ := Obs.forwarded.inj (List.mem_singleton.mp hm)
      exact ⟨t, h, now, b, rfl, ht, hpc, rfl, rfl, rfl⟩
  | checkDup _ _ _ => exact absurd (List.mem_singleton.mp hm) (by simp)
  | checkNew _ _ _ _ => exact absurd (List.mem_singleton.mp hm) (by simp)
  | targetReads _ => exact absurd (List.mem_singleton.mp hm) (by simp)
  | @responseSend _ _ _ p _ _ b _ =>
      cases b
      · exact absurd hm List.not_mem_nil
      · cases p <;> exact absurd (List.mem_singleton.mp hm) (by simp [sendOnPath])
  | _ => exact absurd hm List.not_mem_nil

/-- What is read from a target socket is the datagram that has come in. -/
theorem Act.targetRead {s s' : State} {e : Event} {obs : List Obs} (ha : Act s e s' obs) {o : ObjId}
    {sid : UInt64} {payload : List UInt8} (hm : .targetRead o sid payload ∈ obs) :
    e = .targetReads o payload := by
  cases ha with
  | targetReads _ =>
      obtain ⟨rfl, -, rfl⟩ := Obs.targetRead.inj (List.mem_singleton.mp hm)
      rfl
  | checkDup _ _ _ | checkNew _ _ _ _ | forward _ _ =>
      exact absurd (List.mem_singleton.mp hm) (by simp)
  | @responseSend _ _ _ p _ _ b _ =>
      cases b
      · exact absurd hm List.not_mem_nil
      · cases p <;> exact absurd (List.mem_singleton.mp hm) (by simp [sendOnPath])
  | _ => exact absurd hm List.not_mem_nil

theorem act_of_arrive {s s' : State} {source : Source} {data : List UInt8} {obs : List Obs}
    {e : Event} (h : arrive s source data = some (s', obs))
    (htcp : ∀ c, source = .tcp c → s.conns c = .open ∧ e = .tcpArrives c data)
    (hudp : ∀ l addr, source = .udp l addr → e = .udpArrives l addr data) : Act s e s' obs := by
  unfold arrive at h
  split at h
  · exact absurd h (by simp)
  · next hidle =>
      split at h
      · obtain ⟨rfl, rfl⟩ := Prod.mk.inj (Option.some.inj h)
        exact .undecodable hidle htcp hudp
      · next hdec =>
          obtain ⟨rfl, rfl⟩ := Prod.mk.inj (Option.some.inj h)
          exact .arrive hidle htcp hudp hdec

theorem act_of_stepHandler {s s' : State} {t : Task} {h : Handler} {now : ℕ} {b b' : Bool}
    {obs : List Obs} (ht : s.handlers t = some h)
    (hs : stepHandler s t h now b b' = (s', obs)) : Act s (.handler t now b b') s' obs := by
  unfold stepHandler at hs
  dsimp only at hs
  split at hs
  · next hpc =>
      split at hs <;> obtain ⟨rfl, rfl⟩ := Prod.mk.inj hs
      · next hsess => exact .lookupHit ht hpc hsess
      · next hsess => exact .lookupMiss ht hpc hsess
  · next hpc =>
      cases hsess : s.srv.sessions h.sessionId with
      | some o =>
          simp only [createSession, hsess] at hs
          obtain ⟨rfl, rfl⟩ := Prod.mk.inj hs
          exact .createHit ht hpc hsess
      | none =>
          cases b with
          | false =>
              simp only [createSession, hsess] at hs
              obtain ⟨rfl, rfl⟩ := Prod.mk.inj hs
              exact .createFail ht hpc hsess
          | true =>
              have hnew : s.srv.createSession h.sessionId now true =
                  ((s.srv.createSession h.sessionId now true).1, some (s.srv.next, true)) := by
                simp only [createSession, hsess, if_true]
              rw [hnew] at hs
              obtain ⟨rfl, rfl⟩ := Prod.mk.inj hs
              exact .createNew ht hpc hsess
  · next o hpc =>
      obtain ⟨rfl, rfl⟩ := Prod.mk.inj hs
      exact .touch ht hpc
  · next o hpc =>
      split at hs
      · next srv hd =>
          obtain ⟨rfl, rfl⟩ := Prod.mk.inj hs
          have hsrv : srv = (s.srv.checkDuplicate o h.seq).2 := by rw [hd]
          rw [hsrv]
          exact .checkDup ht hpc (by rw [hd])
      · next srv hd =>
          have hsrv : srv = (s.srv.checkDuplicate o h.seq).2 := by rw [hd]
          rw [hsrv] at hs
          split at hs <;> obtain ⟨rfl, rfl⟩ := Prod.mk.inj hs
          · next hsrc => exact .checkNew ht hpc (by rw [hd]) (Or.inl ⟨rfl, _, _, hsrc⟩)
          · next hsrc => exact .checkNew ht hpc (by rw [hd]) (Or.inr ⟨rfl, _, hsrc⟩)
  · next o hpc =>
      split at hs <;> obtain ⟨rfl, rfl⟩ := Prod.mk.inj hs
      · next hsrc => exact .trackUdp ht hpc hsrc
      · next hsrc => exact .track ht hpc hsrc
  · next o hpc =>
      split at hs <;> obtain ⟨rfl, rfl⟩ := Prod.mk.inj hs
      · next hsrc => exact .registerUdp ht hpc hsrc
      · next hsrc => exact .registerTcp ht hpc hsrc
  · next o hpc =>
      obtain ⟨rfl, rfl⟩ := Prod.mk.inj hs
      exact .forward ht hpc

theorem act_of_stepReceiver {s s' : State} {o : ObjId} {now : ℕ} {b : Bool} {obs : List Obs}
    (hs : stepReceiver s o now b = some (s', obs)) : Act s (.receiver o now b) s' obs := by
  unfold stepReceiver at hs
  dsimp only at hs
  split at hs
  · next payload hpc =>
      cases hsess : s.srv.sessions (s.srv.heap o).sessionId with
      | some o' =>
          simp only [hsess] at hs
          obtain ⟨rfl, rfl⟩ := Prod.mk.inj (Option.some.inj hs)
          exact .responseTouch hpc hsess
      | none =>
          simp only [hsess] at hs
          obtain ⟨rfl, rfl⟩ := Prod.mk.inj (Option.some.inj hs)
          exact .responseUntouched hpc hsess
  · next payload hpc =>
      split at hs <;> obtain ⟨rfl, rfl⟩ := Prod.mk.inj (Option.some.inj hs)
      · next hsess => exact .responseNumber hpc hsess
      · next hsess => exact .responseOver (by rw [State.AnswerOver, hpc]; exact hsess)
  · next payload seq hpc =>
      split at hs <;> obtain ⟨rfl, rfl⟩ := Prod.mk.inj (Option.some.inj hs)
      · next hp => exact .responseOver (by rw [State.AnswerOver, hpc]; simp [hp])
      · next hp => exact .responseOver (by rw [State.AnswerOver, hpc]; simp [hp])
      · next hp => exact .responsePaths hpc hp
  · next hpc =>
      obtain ⟨rfl, rfl⟩ := Prod.mk.inj (Option.some.inj hs)
      exact .responseOver (by rw [State.AnswerOver, hpc])
  · next hpc =>
      obtain ⟨rfl, rfl⟩ := Prod.mk.inj (Option.some.inj hs)
      exact .responseSend hpc
  · exact absurd hs (by simp)

/-- **Inversion.**  Every move of the step function is an instance of one rule. -/
theorem act_of_step {s s' : State} {e : Event} {obs : List Obs}
    (h : step s e = some (s', obs)) : Act s e s' obs := by
  cases e with
  | udpArrives l addr data =>
      refine act_of_arrive h (fun c hc => by cases hc) (fun l' addr' hs => ?_)
      obtain ⟨rfl, rfl⟩ := Source.udp.inj hs
      rfl
  | tcpArrives c data =>
      obtain ⟨hopen, h⟩ := Option.ite_none_right_eq_some.mp h
      refine act_of_arrive h (fun c' hc => ?_) (fun l addr hs => by cases hs)
      obtain rfl := Source.tcp.inj hc
      exact ⟨hopen, rfl⟩
  | accept c =>
      obtain ⟨hc, h⟩ := Option.ite_none_right_eq_some.mp h
      obtain ⟨rfl, rfl⟩ := Prod.mk.inj (Option.some.inj h)
      exact .accept hc
  | handler t now b b' =>
      simp only [step] at h
      split at h
      · exact absurd h (by simp)
      · next hd ht => exact act_of_stepHandler ht (Option.some.inj h)
  | connEnds c =>
      obtain ⟨hc, h⟩ := Option.ite_none_right_eq_some.mp h
      obtain ⟨rfl, rfl⟩ := Prod.mk.inj (Option.some.inj h)
      exact .connEnds hc.1 hc.2
  | cleanup c =>
      simp only [step] at h
      split at h
      · next hc =>
          obtain ⟨rfl, rfl⟩ := Prod.mk.inj (Option.some.inj h)
          exact .untrack hc
      · next hc =>
          obtain ⟨rfl, rfl⟩ := Prod.mk.inj (Option.some.inj h)
          exact .removePath hc
      · exact absurd h (by simp)
  | targetReads o payload =>
      obtain ⟨hpc, h⟩ := Option.ite_none_right_eq_some.mp h
      obtain ⟨rfl, rfl⟩ := Prod.mk.inj (Option.some.inj h)
      exact .targetReads hpc
  | targetFails o =>
      obtain ⟨hpc, h⟩ := Option.ite_none_right_eq_some.mp h
      obtain ⟨rfl, rfl⟩ := Prod.mk.inj (Option.some.inj h)
      exact .targetFails hpc
  | receiverCancelled o =>
      obtain ⟨hpc, h⟩ := Option.ite_none_right_eq_some.mp h
      obtain ⟨rfl, rfl⟩ := Prod.mk.inj (Option.some.inj h)
      exact .receiverCancelled hpc.1 hpc.2
  | receiver o now b => exact act_of_stepReceiver h
  | sweep now =>
      obtain ⟨rfl, rfl⟩ := Prod.mk.inj (Option.some.inj h)
      exact .sweep
  | stop =>
      obtain ⟨rfl, rfl⟩ := Prod.mk.inj (Option.some.inj h)
      exact .stop

theorem act_of_machine {cfg : ServerConfig} {s s' : State} {e : Event} {obs : List Obs}
    (h : (machine cfg).step s e = some (s', obs)) : Act s e s' obs :=
  act_of_step h

/-- A configuration to run. -/
def demoConfig : ServerConfig := ⟨100, 60, by decide⟩

end Fproxy.Server
