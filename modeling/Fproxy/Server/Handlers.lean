import Fproxy.Server.Machine

/-!
# The server's handlers, run without interruption

`handle_udp_packet`, `handle_tcp_packet` and `send_response_to_all_paths` as functions: their
sections one after the other, with nothing in between.  What the environment decides during one
call is an argument.

* `handleFrom_runs`, `cleanupTcpConn_runs`, `sendResponseToAllPaths_runs` — each is the run
  of its task in the machine, undisturbed.
-/

namespace Fproxy.Server

open Fproxy.Protocol Fproxy.Runs

/-! ### Packets -/

/-- What the environment decides while a packet is handled: the clock, whether a target socket can
be set up, and whether the send to the target succeeds. -/
structure HandleEnv where
  now : ℕ
  connected : Bool
  sendOk : Bool
  deriving DecidableEq

/-- `add_tcp_path`. -/
def addTcpPath (s : Server) (sessionId : UInt64) (connId writer : ConnId) : Server :=
  (s.trackTcpConn sessionId connId).registerTcpPath sessionId connId writer

/-- What `handle_udp_packet` and `handle_tcp_packet` share; they differ in the path they add. -/
def handlePacket (s : Server) (addPath : Server → UInt64 → Server) (data : List UInt8)
    (env : HandleEnv) : Server × List Obs :=
  match decodePacket data with
  | .error _ => (s, [])
  | .ok (sessionId, seq, payload) =>
      match s.getOrCreateSession sessionId env.now env.connected with
      | (s, none) => (s, [])
      | (s, some (o, _)) =>
          match (s.touch o env.now).checkDuplicate o seq with
          | (true, s) => (s, [.checked o seq payload true])
          | (false, s) =>
              (addPath s sessionId,
                [.checked o seq payload false, .forwarded o sessionId seq payload env.sendOk])

/-- `handle_udp_packet`. -/
def handleUdpPacket (s : Server) (l : ListenerId) (addr : SocketAddr) (data : List UInt8)
    (env : HandleEnv) : Server × List Obs :=
  s.handlePacket (fun s sessionId => s.addUdpPath sessionId addr l) data env

/-- `handle_tcp_packet`. -/
def handleTcpPacket (s : Server) (c : ConnId) (data : List UInt8) (env : HandleEnv) :
    Server × List Obs :=
  s.handlePacket (fun s sessionId => s.addTcpPath sessionId c c) data env

/-! ### Responses -/

/-- `send_response_to_all_paths`, for a datagram read from the target socket of `sessionId`. -/
def sendResponseToAllPaths (s : Server) (sessionId : UInt64) (payload : List UInt8) (now : ℕ)
    (sendOk : ClientPath → Bool) : Server × List Obs :=
  match s.sessions sessionId with
  | none => (s, [])
  | some o =>
      let r := (s.touch o now).takeResponseSeq o
      (r.2, (((r.2.clientPaths sessionId).getD []).filter sendOk).map
        (sendOnPath sessionId r.1 payload))

theorem sendResponseToAllPaths_sessions (s : Server) (sid : UInt64) (payload : List UInt8)
    (now : ℕ) (sendOk : ClientPath → Bool) :
    (s.sendResponseToAllPaths sid payload now sendOk).1.sessions = s.sessions := by
  unfold sendResponseToAllPaths
  split <;> rfl

/-- `cleanup_tcp_conn`. -/
def cleanupTcpConn (s : Server) (c : ConnId) : Server :=
  (s.untrackTcpConn c).2.removeTcpPath (s.untrackTcpConn c).1 c

/-- The handler for a packet from a source. -/
def handleFrom (s : Server) (source : Source) (data : List UInt8) (env : HandleEnv) :
    Server × List Obs :=
  match source with
  | .udp l addr => s.handleUdpPacket l addr data env
  | .tcp c => s.handleTcpPacket c data env

/-- The path a handler adds for a packet from a source. -/
def Source.addPath : Source → Server → UInt64 → Server
  | .udp l addr, s, sessionId => s.addUdpPath sessionId addr l
  | .tcp c, s, sessionId => s.addTcpPath sessionId c c

theorem handleFrom_eq (s : Server) (source : Source) (data : List UInt8) (env : HandleEnv) :
    s.handleFrom source data env = s.handlePacket source.addPath data env := by
  cases source <;> rfl

theorem handleFrom_undecodable (s : Server) (source : Source) {data : List UInt8}
    (env : HandleEnv) {e : ProtocolError} (hdec : decodePacket data = .error e) :
    s.handleFrom source data env = (s, []) := by
  rw [handleFrom_eq, handlePacket, hdec]

/-! ### The handlers as undisturbed runs -/

section Runs

variable (cfg : ServerConfig)

/-- The event of a packet coming in from a source. -/
def Source.arrives : Source → List UInt8 → Event
  | .udp l addr, data => .udpArrives l addr data
  | .tcp c, data => .tcpArrives c data

/-- A packet with a session id, from its arrival to the lookup of the session. -/
theorem arrive_runs {s : State} {source : Source} {data : List UInt8} {p : Packet}
    (hidle : s.handlers source.task = none) (hopen : ∀ c, source = .tcp c → s.conns c = .open)
    (hdec : decodePacket data = .ok p) :
    (machine cfg).step s (source.arrives data) =
      some (s.setHandler source.task (some ⟨source, p.1, p.2.1, p.2.2, .lookup⟩), []) := by
  cases source with
  | udp l addr =>
      have hidle : s.handlers (.listener l) = none := hidle
      simp [machine, step, arrive, Source.arrives, Source.task, hidle, hdec]
  | tcp c =>
      have hidle : s.handlers (.conn c) = none := hidle
      simp [machine, step, arrive, Source.arrives, Source.task, hidle, hdec, hopen c rfl]

/-- `get_or_create_session` in the task of a packet. -/
theorem getOrCreateSession_runs (s : State) (source : Source) (sid : UInt64) (seq : UInt32)
    (payload : List UInt8) (env : HandleEnv)
    (ht : s.handlers source.task = some ⟨source, sid, seq, payload, .lookup⟩) :
    ∃ k, (machine cfg).execFrom s
        (List.replicate k (.handler source.task env.now env.connected env.sendOk)) =
      match s.srv.getOrCreateSession sid env.now env.connected with
      | (srv, none) => some ({ s with srv := srv }.setHandler source.task none, [])
      | (srv, some (o, _)) =>
          some ({ s with srv := srv }.setHandler source.task
            (some ⟨source, sid, seq, payload, .touch o⟩), []) := by
  cases hs : s.srv.sessions sid with
  | some o =>
      exact ⟨1, by simp [List.replicate, Machine.execFrom, machine, step, ht, stepHandler,
        State.setHandler, hs, getOrCreateSession]⟩
  | none =>
      cases hc : env.connected <;>
        exact ⟨2, by simp [List.replicate, Machine.execFrom, machine, step, ht, stepHandler,
          State.setHandler, hs, getOrCreateSession, createSession]⟩

/-- A move of a task that handles a packet. -/
theorem step_handler {s : State} {t : Task} {h : Handler} (ht : s.handlers t = some h) (now : ℕ)
    (b b' : Bool) :
    (machine cfg).step s (.handler t now b b') = some (stepHandler s t h now b b') := by
  simp [machine, step, ht]

/-- The registration of a path in `client_paths`. -/
def Source.register : Source → Server → UInt64 → Server
  | .udp l addr, s, sessionId => s.addUdpPath sessionId addr l
  | .tcp c, s, sessionId => s.registerTcpPath sessionId c c

/-- A packet from the registration of its path to the end of its task. -/
theorem register_runs (s : State) (source : Source) (sid : UInt64) (seq : UInt32)
    (payload : List UInt8) (o : ObjId) (env : HandleEnv)
    (ht : s.handlers source.task = some ⟨source, sid, seq, payload, .register o⟩) :
    (machine cfg).execFrom s
        (List.replicate 2 (.handler source.task env.now env.connected env.sendOk)) =
      some ({ s with srv := source.register s.srv sid }.setHandler source.task none,
        [.forwarded o sid seq payload env.sendOk]) := by
  let s₁ : State := { s with srv := source.register s.srv sid }.setHandler source.task
    (some ⟨source, sid, seq, payload, .forward o⟩)
  have hregister : (machine cfg).step s
      (.handler source.task env.now env.connected env.sendOk) = some (s₁, []) := by
    rw [step_handler cfg ht]
    cases source <;> rfl
  have hforward := step_handler cfg (s := s₁) (t := source.task) (Function.update_self _ _ _)
    env.now env.connected env.sendOk
  simp only [stepHandler] at hforward
  rw [List.replicate_succ, List.replicate_one,
    Machine.execFrom_cons_eq _ hregister (Machine.execFrom_cons_eq _ hforward rfl)]
  simp [s₁, State.setHandler]

/-- The task of a packet that a session has been found for, from the write of `last_activity` on. -/
theorem found_runs (s : State) (source : Source) (sid : UInt64) (seq : UInt32)
    (payload : List UInt8) (o : ObjId) (env : HandleEnv)
    (ht : s.handlers source.task = some ⟨source, sid, seq, payload, .touch o⟩) :
    ∃ k, (machine cfg).execFrom s
        (List.replicate k (.handler source.task env.now env.connected env.sendOk)) =
      match (s.srv.touch o env.now).checkDuplicate o seq with
      | (true, srv) =>
          some ({ s with srv := srv }.setHandler source.task none, [.checked o seq payload true])
      | (false, srv) =>
          some ({ s with srv := source.addPath srv sid }.setHandler source.task none,
            [.checked o seq payload false, .forwarded o sid seq payload env.sendOk]) := by
  -- the task with the packet in hand, at a section and with the tables as they then are
  let inHand (srv : Server) (pc : HandlerPc) : State :=
    { s with srv := srv }.setHandler source.task (some ⟨source, sid, seq, payload, pc⟩)
  have hmove : ∀ srv pc, (machine cfg).step (inHand srv pc)
      (.handler source.task env.now env.connected env.sendOk) =
        some (stepHandler (inHand srv pc) source.task ⟨source, sid, seq, payload, pc⟩ env.now
          env.connected env.sendOk) :=
    fun srv pc => step_handler cfg (Function.update_self _ _ _) _ _ _
  have hover : ∀ srv pc srv' h', { inHand srv pc with srv := srv' }.setHandler source.task h' =
      { s with srv := srv' }.setHandler source.task h' := by
    intro srv pc srv' h'
    simp [inHand, State.setHandler]
  have htouch : (machine cfg).step s (.handler source.task env.now env.connected env.sendOk) =
      some (inHand (s.srv.touch o env.now) (.check o), []) := step_handler cfg ht _ _ _
  have hcheck := hmove (s.srv.touch o env.now) (.check o)
  simp only [stepHandler, hover] at hcheck
  cases hd : (s.srv.touch o env.now).checkDuplicate o seq with
  | mk dup srv =>
      have hd : ((inHand (s.srv.touch o env.now) (.check o)).srv).checkDuplicate o seq = (dup, srv) :=
        hd
      rw [hd] at hcheck
      cases dup with
      | true => exact ⟨2, Machine.execFrom_cons_eq _ htouch (Machine.execFrom_cons_eq _ hcheck rfl)⟩
      | false =>
          have hregister := fun srv => register_runs cfg (inHand srv (.register o)) source sid seq
            payload o env (Function.update_self _ _ _)
          simp only [hover] at hregister
          cases source with
          | udp l addr =>
              exact ⟨4, Machine.execFrom_cons_eq _ htouch
                (Machine.execFrom_cons_eq _ hcheck (hregister srv))⟩
          | tcp c =>
              have htrack := hmove srv (.track o)
              simp only [stepHandler, hover] at htrack
              exact ⟨5, Machine.execFrom_cons_eq _ htouch (Machine.execFrom_cons_eq _ hcheck
                (Machine.execFrom_cons_eq _ htrack (hregister (srv.trackTcpConn sid c))))⟩

/-- **`handle_udp_packet` and `handle_tcp_packet` are the runs of their tasks, undisturbed.** -/
theorem handleFrom_runs (s : State) (source : Source) (data : List UInt8) (env : HandleEnv)
    (hidle : s.handlers source.task = none) (hopen : ∀ c, source = .tcp c → s.conns c = .open) :
    ∃ k, (machine cfg).execFrom s (source.arrives data ::
        List.replicate k (.handler source.task env.now env.connected env.sendOk)) =
      some ({ s with srv := (s.srv.handleFrom source data env).1 },
        (s.srv.handleFrom source data env).2) := by
  -- a task that has taken a packet in hand and let it go is idle again
  have hback : ∀ (srv : Server) (h : Option Handler) (srv' : Server),
      { ({ s with srv := srv }.setHandler source.task h) with srv := srv' }.setHandler
        source.task none = { s with srv := srv' } := by
    intro srv h srv'
    have hsame : Function.update s.handlers source.task none = s.handlers := by
      rw [← hidle, Function.update_eq_self]
    simp [State.setHandler, hsame]
  rw [handleFrom_eq]
  unfold handlePacket
  cases hdec : decodePacket data with
  | error e =>
      refine ⟨0, ?_⟩
      cases source with
      | udp l addr =>
          have hidle : s.handlers (.listener l) = none := hidle
          simp [Machine.execFrom, machine, step, arrive, Source.arrives, Source.task, hidle, hdec]
      | tcp c =>
          have hidle : s.handlers (.conn c) = none := hidle
          simp [Machine.execFrom, machine, step, arrive, Source.arrives, Source.task, hidle, hdec,
            hopen c rfl]
  | ok p =>
      obtain ⟨sid, seq, payload⟩ := p
      have harrive := arrive_runs cfg hidle hopen hdec
      obtain ⟨k₁, h₁⟩ := getOrCreateSession_runs cfg
        (s.setHandler source.task (some ⟨source, sid, seq, payload, .lookup⟩)) source sid seq
        payload env (by simp [State.setHandler])
      have hsrv : (s.setHandler source.task (some ⟨source, sid, seq, payload, .lookup⟩)).srv =
          s.srv := rfl
      rw [hsrv] at h₁
      cases hget : s.srv.getOrCreateSession sid env.now env.connected with
      | mk srv found =>
          rw [hget] at h₁
          cases found with
          | none =>
              refine ⟨k₁, ?_⟩
              rw [Machine.execFrom_cons_eq _ harrive h₁]
              simp only [hget]
              exact congrArg some (Prod.ext (hback s.srv _ srv) rfl)
          | some q =>
              obtain ⟨o, created⟩ := q
              have htouch : { s.setHandler source.task
                  (some ⟨source, sid, seq, payload, .lookup⟩) with srv := srv }.setHandler
                    source.task (some ⟨source, sid, seq, payload, .touch o⟩) =
                  { s with srv := srv }.setHandler source.task
                    (some ⟨source, sid, seq, payload, .touch o⟩) := by
                simp [State.setHandler]
              dsimp only at h₁
              rw [htouch] at h₁
              obtain ⟨k₂, h₂⟩ := found_runs cfg
                ({ s with srv := srv }.setHandler source.task
                  (some ⟨source, sid, seq, payload, .touch o⟩)) source sid seq payload o env
                (by simp [State.setHandler])
              have hsrv' : ({ s with srv := srv }.setHandler source.task
                  (some ⟨source, sid, seq, payload, .touch o⟩)).srv = srv := rfl
              rw [hsrv'] at h₂
              refine ⟨k₁ + k₂, ?_⟩
              rw [← List.replicate_append_replicate]
              simp only [hget]
              cases hd : (srv.touch o env.now).checkDuplicate o seq with
              | mk dup srv' =>
                  rw [hd] at h₂
                  cases dup <;>
                    rw [Machine.execFrom_cons_eq _ harrive
                      ((Machine.execFrom_append _).mpr ⟨_, _, _, h₁, h₂, rfl⟩)] <;>
                    exact congrArg some (Prod.ext (hback srv _ _) rfl)

/-- **`cleanup_tcp_conn` is the run of its two sections, after the connection has ended.** -/
theorem cleanupTcpConn_runs (s : State) (c : ConnId) (hopen : s.conns c = .open)
    (hidle : s.handlers (.conn c) = none) :
    (machine cfg).execFrom s [.connEnds c, .cleanup c, .cleanup c] =
      some ({ s with srv := s.srv.cleanupTcpConn c }.setConn c .closed, []) := by
  simp [Machine.execFrom, machine, step, hopen, hidle, State.setConn, cleanupTcpConn]

/-- Only the response task of one object moves. -/
def ReceiverOnly (o : ObjId) (es : List Event) : Prop :=
  ∀ e ∈ es, ∃ now ok, e = .receiver o now ok

theorem ReceiverOnly.nil (o : ObjId) : ReceiverOnly o [] := fun _ h => absurd h List.not_mem_nil

theorem ReceiverOnly.cons {o : ObjId} {es : List Event} (h : ReceiverOnly o es) (now : ℕ)
    (ok : Bool) : ReceiverOnly o (.receiver o now ok :: es) := by
  intro e he
  rcases List.mem_cons.mp he with rfl | he
  · exact ⟨now, ok, rfl⟩
  · exact h e he

/-- The loop over the paths, to the end of `send_response_to_all_paths`. -/
theorem sending_runs (s : State) (o : ObjId) (payload : List UInt8) (seq : UInt32)
    (ok : ClientPath → Bool) (ps : List ClientPath)
    (hpc : s.srv.receivers o = .sending payload seq ps) :
    ∃ es, ReceiverOnly o es ∧ (machine cfg).execFrom s es =
      some (s.setReceiver o .recv,
        (ps.filter ok).map (sendOnPath (s.srv.heap o).sessionId seq payload)) := by
  induction ps generalizing s with
  | nil =>
      refine ⟨_, (ReceiverOnly.nil o).cons 0 true, ?_⟩
      simp [Machine.execFrom, machine, step, stepReceiver, hpc]
  | cons p ps ih =>
      obtain ⟨es, hes, hrun⟩ := ih (s.setReceiver o (.sending payload seq ps))
        (by simp [State.setReceiver])
      have hstep : (machine cfg).step s (.receiver o 0 (ok p)) =
          some (s.setReceiver o (.sending payload seq ps),
            if ok p then [sendOnPath (s.srv.heap o).sessionId seq payload p] else []) := by
        simp [machine, step, stepReceiver, hpc]
      refine ⟨_, hes.cons 0 (ok p), ?_⟩
      rw [Machine.execFrom_cons_eq _ hstep hrun]
      cases hok : ok p <;> simp [State.setReceiver, hok]

/-- The list of paths is copied, and the response sent on each of them. -/
theorem paths_runs (s : State) (o : ObjId) (payload : List UInt8) (seq : UInt32)
    (ok : ClientPath → Bool) (hpc : s.srv.receivers o = .paths payload seq) :
    ∃ es, ReceiverOnly o es ∧ (machine cfg).execFrom s es =
      some (s.setReceiver o .recv,
        (((s.srv.clientPaths (s.srv.heap o).sessionId).getD []).filter ok).map
          (sendOnPath (s.srv.heap o).sessionId seq payload)) := by
  -- an empty list is as good as none
  have hover : (s.srv.clientPaths (s.srv.heap o).sessionId = none ∨
      s.srv.clientPaths (s.srv.heap o).sessionId = some []) →
      (machine cfg).execFrom s [.receiver o 0 true] = some (s.setReceiver o .recv, []) := by
    intro h
    rcases h with h | h <;> simp [Machine.execFrom, machine, step, stepReceiver, hpc, h]
  cases hp : s.srv.clientPaths (s.srv.heap o).sessionId with
  | none => exact ⟨_, (ReceiverOnly.nil o).cons 0 true, hover (Or.inl hp)⟩
  | some paths =>
      cases paths with
      | nil => exact ⟨_, (ReceiverOnly.nil o).cons 0 true, hover (Or.inr hp)⟩
      | cons p ps =>
          have hstep : (machine cfg).step s (.receiver o 0 true) =
              some (s.setReceiver o (.sending payload seq (p :: ps)), []) := by
            simp [machine, step, stepReceiver, hpc, hp]
          obtain ⟨es, hes, hrun⟩ := sending_runs cfg
            (s.setReceiver o (.sending payload seq (p :: ps))) o payload seq ok (p :: ps)
            (by simp [State.setReceiver])
          refine ⟨_, hes.cons 0 true, ?_⟩
          rw [Machine.execFrom_cons_eq _ hstep hrun]
          simp [State.setReceiver]

/-- **`send_response_to_all_paths` is the run of a response task, undisturbed.** -/
theorem sendResponseToAllPaths_runs (s : State) (o : ObjId) (payload : List UInt8) (now : ℕ)
    (ok : ClientPath → Bool) (hpc : s.srv.receivers o = .recv) :
    ∃ es, ReceiverOnly o es ∧ (machine cfg).execFrom s (.targetReads o payload :: es) =
      some ({ s with
          srv := (s.srv.sendResponseToAllPaths (s.srv.heap o).sessionId payload now ok).1 },
        .targetRead o (s.srv.heap o).sessionId payload ::
          (s.srv.sendResponseToAllPaths (s.srv.heap o).sessionId payload now ok).2) := by
  -- a task that is back at `recv` has not moved
  have hback : Function.update s.srv.receivers o .recv = s.srv.receivers := by
    rw [← hpc, Function.update_eq_self]
  have hread : (machine cfg).step s (.targetReads o payload) =
      some (s.setReceiver o (.touch payload), [.targetRead o (s.srv.heap o).sessionId payload]) := by
    simp [machine, step, hpc]
  cases hs : s.srv.sessions (s.srv.heap o).sessionId with
  | none =>
      refine ⟨_, ((ReceiverOnly.nil o).cons now true).cons now true, ?_⟩
      have hstop : (machine cfg).execFrom (s.setReceiver o (.touch payload))
          [.receiver o now true, .receiver o now true] = some (s, []) := by
        simp [Machine.execFrom, machine, step, stepReceiver, State.setReceiver, hs, hback]
      rw [Machine.execFrom_cons_eq _ hread hstop]
      simp [sendResponseToAllPaths, hs]
  | some o' =>
      let r := (s.srv.touch o' now).takeResponseSeq o'
      have htouch : (machine cfg).step (s.setReceiver o (.touch payload))
          (.receiver o now true) =
          some ({ s with srv := s.srv.touch o' now }.setReceiver o (.number payload), []) := by
        simp [machine, step, stepReceiver, State.setReceiver, hs, Server.touch]
      have hnumber : (machine cfg).step
          ({ s with srv := s.srv.touch o' now }.setReceiver o (.number payload))
          (.receiver o now true) =
          some ({ s with srv := r.2 }.setReceiver o (.paths payload r.1), []) := by
        have hs' : (s.srv.touch o' now).sessions (s.srv.heap o).sessionId = some o' := hs
        simp [machine, step, stepReceiver, State.setReceiver, hs', r, takeResponseSeq]
      obtain ⟨es, hes, hrun⟩ := paths_runs cfg
        ({ s with srv := r.2 }.setReceiver o (.paths payload r.1)) o payload r.1 ok
        (by simp [State.setReceiver])
      refine ⟨_, (hes.cons now true).cons now true, ?_⟩
      rw [Machine.execFrom_cons_eq _ hread (Machine.execFrom_cons_eq _ htouch
        (Machine.execFrom_cons_eq _ hnumber hrun))]
      have hsame : ({ s with srv := r.2 }.setReceiver o (.paths payload r.1)).setReceiver o .recv =
          { s with srv := r.2 } := by
        simp [State.setReceiver, r, Server.touch, takeResponseSeq, hback]
      rw [hsame]
      simp [sendResponseToAllPaths, hs, r, State.setReceiver]

end Runs

end Fproxy.Server
