import Fproxy.Library.Locks
import Fproxy.Server.Machine

/-!
# The locks of the server

`server.rs` guards its tables by one lock each, every session by one for its window and one for its
timestamp, and the write half of every connection by another.  A section of a task holds a lock, and
asks for others while it does.  `lockOps` lists what each section asks for, in order, with the calls
it makes: a session is connected under the lock of `sessions`, and a frame is written under that of
the write half, without a timeout.  Neither need return: a write waits as long as the peer does not
read, and with it every task that wants to write on the connection.

* `server_held_up_by_calls_alone` — whatever sections the tasks go through, they wait for nothing
  but such calls in the end.
-/

namespace Fproxy.Server

open Fproxy.Locks Fproxy.Runs

/-- The locks of the server. -/
inductive Lock where
  | sessions
  | clientPaths
  | tcpConnToSession
  | lastActivity (o : ObjId)
  | dedupWindow (o : ObjId)
  | writer (c : ConnId)
  deriving DecidableEq

/-- Only `sessions` is held while another lock is asked for. -/
def Lock.rank : Lock → ℕ
  | .sessions => 0
  | _ => 1

/-- The tasks that take locks. -/
inductive Worker where
  /-- `handle_udp_listener` or `handle_tcp_conn`. -/
  | task (t : Task)
  /-- `handle_target_response`. -/
  | receiver (o : ObjId)
  /-- `session_cleanup_loop`. -/
  | sweeper
  /-- The accept loops and the caller of `stop`. -/
  | other
  deriving DecidableEq

/-- The task that an event moves. -/
def Event.worker : Event → Worker
  | .udpArrives l _ _ => .task (.listener l)
  | .tcpArrives c _ | .connEnds c | .cleanup c => .task (.conn c)
  | .handler t _ _ _ => .task t
  | .targetReads o _ | .targetFails o | .receiverCancelled o | .receiver o _ _ => .receiver o
  | .sweep _ => .sweeper
  | .accept _ | .stop => .other

/-- What a section of `handle_udp_packet` or `handle_tcp_packet` asks for. -/
def handlerOps (srv : Server) (h : Handler) : List (Op Lock) :=
  match h.pc with
  | .lookup => locked .sessions .shared []
  | .create =>
      locked .sessions .exclusive
        (match srv.sessions h.sessionId with
          | some _ => []
          | none => [.call])
  | .touch o => locked (.lastActivity o) .exclusive []
  | .check o => locked (.dedupWindow o) .exclusive []
  | .track _ =>
      match h.source with
      | .udp _ _ => []
      | .tcp _ => locked .tcpConnToSession .exclusive []
  | .register _ => locked .clientPaths .exclusive []
  | .forward _ => [.call]

/-- What a section of `send_response_to_all_paths` asks for. -/
def receiverOps (srv : Server) (o : ObjId) : List (Op Lock) :=
  match srv.receivers o with
  | .touch _ =>
      locked .sessions .shared
        (match srv.sessions (srv.heap o).sessionId with
          | some o' => locked (.lastActivity o') .exclusive []
          | none => [])
  | .number _ => locked .sessions .shared []
  | .paths _ _ => locked .clientPaths .shared []
  | .sending _ _ (.udp _ _ :: _) => [.call]
  | .sending _ _ (.tcp _ w :: _) => locked (.writer w) .exclusive [.call]
  | _ => []

/-- What a section of `cleanup_tcp_conn` asks for. -/
def cleanupOps : ConnState → List (Op Lock)
  | .ended => locked .tcpConnToSession .exclusive []
  | .untracked (some _) => locked .clientPaths .exclusive []
  | _ => []

/-- The session objects in the table. -/
def storedObjs (srv : Server) : List ObjId :=
  (List.range srv.next).filter fun o => srv.sessions (srv.heap o).sessionId = some o

/-- What `cleanup_expired_sessions` asks for: under the lock of the table, the timestamp of every
session, and the path lists once for every session that has expired. -/
def sweepOps (srv : Server) (now : ℕ) : List (Op Lock) :=
  locked .sessions .exclusive
    ((storedObjs srv).flatMap (fun o => locked (.lastActivity o) .shared []) ++
      ((storedObjs srv).filter fun o => srv.expired now (srv.heap o).sessionId).flatMap
        fun _ => locked .clientPaths .exclusive [])

/-- What the section of an event asks for. -/
def lockOps (s : State) : Event → List (Op Lock)
  | .handler t _ _ _ =>
      match s.handlers t with
      | some h => handlerOps s.srv h
      | none => []
  | .receiver o _ _ => receiverOps s.srv o
  | .cleanup c => cleanupOps (s.conns c)
  | .sweep now => sweepOps s.srv now
  | _ => []

theorem handlerOps_balanced (srv : Server) (h : Handler) :
    Balanced Lock.rank 0 (handlerOps srv h) := by
  unfold handlerOps
  cases h.pc with
  | create =>
      refine .locked (Nat.zero_le _) ?_
      split
      · exact .nil
      · exact .call
  | track o =>
      cases h.source with
      | udp l addr => exact .nil
      | tcp c => exact .single
  | forward o => exact .call
  | _ => exact .single

theorem receiverOps_balanced (srv : Server) (o : ObjId) :
    Balanced Lock.rank 0 (receiverOps srv o) := by
  unfold receiverOps
  split
  · refine .locked (Nat.zero_le _) ?_
    split
    · exact .short (Nat.le_refl 1)
    · exact .nil
  · exact .single
  · exact .single
  · exact .call
  · exact .locked (Nat.zero_le _) .call
  · exact .nil

theorem cleanupOps_balanced (k : ConnState) : Balanced Lock.rank 0 (cleanupOps k) := by
  unfold cleanupOps
  split
  · exact .single
  · exact .single
  · exact .nil

theorem sweepOps_balanced (srv : Server) (now : ℕ) :
    Balanced Lock.rank 0 (sweepOps srv now) := by
  refine .locked (Nat.zero_le _) (.append ?_ ?_)
  · exact .flatMap fun o _ => .short (Nat.le_refl 1)
  · exact .flatMap fun o _ => .short (Nat.le_refl 1)

/-- Every section takes its locks in order. -/
theorem lockOps_balanced (s : State) (e : Event) : Balanced Lock.rank 0 (lockOps s e) := by
  cases e with
  | handler t now connected sendOk =>
      rw [lockOps]
      split
      · exact handlerOps_balanced _ _
      · exact .nil
  | receiver o now sendOk => exact receiverOps_balanced s.srv o
  | cleanup c => exact cleanupOps_balanced (s.conns c)
  | sweep now => exact sweepOps_balanced s.srv now
  | _ => exact .nil

theorem Lock.rank_lt (l : Lock) : l.rank < 2 := by
  cases l <;> simp [Lock.rank]

/-- **The server is held up by calls alone.**  Let its tasks go through the sections of any run, ask
for the locks in any order, and let the locks be given to whoever waits, as long as a free lock is
given to someone: no task waits for ever but for a call that does not return, and if the calls
return, every task comes to the end of its sections. -/
theorem server_held_up_by_calls_alone (cfg : ServerConfig) {admits : Admits Worker Lock}
    (hlive : Live admits) (es : List Event) :
    HeldUpByCalls (es.map Event.worker)
      (lockMachine (machine cfg) Event.worker lockOps admits es) :=
  sections_heldUpByCalls (machine cfg) lockOps_balanced hlive Lock.rank_lt es

/-- Two sessions over one connection, and an answer of either target. -/
def answersOnOneConn : List Event :=
  .accept 0 ::
    (([1, 2].flatMap fun sid =>
      Event.tcpArrives 0 (Protocol.encodePacket sid 0 [7]) ::
        List.replicate 7 (Event.handler (.conn 0) 0 true true)) ++
      [0, 1].flatMap fun o => Event.targetReads o [8] :: List.replicate 4 (Event.receiver o 1 true))

/-- A response task takes its locks up to the `n`-th section of its answer. -/
def takesSections (o : ObjId) : List (Locks.Event Worker) :=
  let moves (n : ℕ) : List (Locks.Event Worker) :=
    (List.replicate n [.move (.receiver o), .grant (.receiver o)]).flatten
  moves 2 ++ [Locks.Event.move (.receiver o), Locks.Event.move (.receiver o)] ++
    moves 1 ++ [Locks.Event.move (.receiver o)] ++
    moves 1 ++ [Locks.Event.move (.receiver o)]

/-- The first response task writes to a peer that does not read, and the second one waits for the
connection; it goes on when the write returns. -/
theorem server_held_up_by_calls_alone_peer_does_not_read :
    ∃ s tr, (lockMachine (machine demoConfig) Event.worker lockOps fifo answersOnOneConn).exec
        (takesSections 0 ++ takesSections 1 ++
          [.move (.receiver 0), .grant (.receiver 0), .move (.receiver 1)]) = some (s, tr) ∧
      s.Holds (.receiver 0) (.writer 0) ∧ (s.tasks (.receiver 1)).WaitsFor (.writer 0) ∧
      (∃ u, Relation.ReflTransGen (Blocks s) (.receiver 1) u ∧ (Free s u ∨ InCall s u)) ∧
      ∃ es' s' tr', (lockMachine (machine demoConfig) Event.worker lockOps fifo
        answersOnOneConn).execFrom s es' = some (s', tr') ∧ Finished s' := by
  have hview : ((lockMachine (machine demoConfig) Event.worker lockOps fifo answersOnOneConn).exec
      (takesSections 0 ++ takesSections 1 ++
        [.move (.receiver 0), .grant (.receiver 0), .move (.receiver 1)])).map (fun r =>
          ((r.1.tasks (.receiver 0)).held, (r.1.tasks (.receiver 1)).waiting,
            (r.1.tasks (.receiver 1)).rest)) =
      some ([(.writer 0, .exclusive)], true, locked (.writer 0) .exclusive [.call]) := by decide
  obtain ⟨⟨s, tr⟩, hrun, hv⟩ := Option.map_eq_some_iff.mp hview
  obtain ⟨hheld, hwaiting, hrest⟩ := by simpa only [Prod.mk.injEq] using hv
  obtain ⟨-, hchain, -, hfinish⟩ :=
    server_held_up_by_calls_alone demoConfig live_fifo answersOnOneConn _ s tr hrun
  exact ⟨s, tr, hrun, ⟨.exclusive, by rw [hheld]; exact List.mem_cons_self⟩,
    ⟨hwaiting, .exclusive, _, hrest⟩, hchain _ (by rw [hrest]; simp [locked]), hfinish⟩

end Fproxy.Server
