import Fproxy.GoServer.Machine
import Fproxy.Library.Locks

/-!
# The locks of the Go server

`server.go` has a lock for each of its three tables and one in every window.  A sweep holds
`sessionsMu` while it takes `clientPathsMu`, and that while it takes `tcpConnToSessionMu`; all
others hold one lock at a time.  The client paths are written to with no lock held; the calls that
are made under one are `net.ResolveUDPAddr` and `net.DialUDP` under `sessionsMu`, which are taken to
return.

* `go_server_never_deadlocks` — whatever sections the goroutines go through, they never get stuck.
-/

namespace Fproxy.GoServer

open Fproxy.Locks Fproxy.Runs
open Fproxy.Server (ObjId)

/-- The locks of the server. -/
inductive Lock where
  | sessionsMu
  | clientPathsMu
  | tcpConnToSessionMu
  /-- `mu` of the window of a session. -/
  | dedupWindow (o : ObjId)
  deriving DecidableEq

/-- The order of the locks. -/
def Lock.rank : Lock → ℕ
  | .sessionsMu | .dedupWindow _ => 0
  | .clientPathsMu => 1
  | .tcpConnToSessionMu => 2

/-- Who takes locks. -/
inductive Worker where
  | goroutine (g : Goroutine)
  /-- The caller of `Stop`. -/
  | stop
  /-- `Start`. -/
  | start
  deriving DecidableEq

/-- Who makes a move. -/
def Event.worker : Event → Worker
  | .listen _ | .startCleanup => .start
  | .select g | .readFails g | .proceed g _ _ => .goroutine g
  | .datagram l _ _ => .goroutine (.udpListener l)
  | .accept l => .goroutine (.tcpListener l)
  | .lengthRead c _ | .dataRead c _ => .goroutine (.tcpConn c)
  | .targetRead o | .deadline o => .goroutine (.targetResponse o)
  | .sweep _ => .goroutine .sessionCleanup
  | .stop => .stop

/-- What `addUDPPath` or `addTCPPath` asks for. -/
def addPathOps : ClientPath → List (Op Lock)
  | .udp _ _ => locked .clientPathsMu .exclusive []
  | .tcp _ =>
      locked Lock.tcpConnToSessionMu .exclusive [] ++ locked Lock.clientPathsMu .exclusive []

/-- What `handleUDPPacket` or `handleTCPPacket` asks for once it has its session. -/
def admitOps (s : State) (path : ClientPath) (seq : UInt32) (o : ObjId) : List (Op Lock) :=
  locked Lock.sessionsMu .exclusive [] ++ locked (Lock.dedupWindow o) .exclusive [] ++
    if ((s.heap o).dedupWindow.isDuplicate seq).1 then [] else addPathOps path

/-- What `handleTargetResponse` asks for with a datagram in hand. -/
def respondOps (s : State) (o : ObjId) : List (Op Lock) :=
  locked Lock.sessionsMu .exclusive [] ++ locked Lock.sessionsMu .shared [] ++
    match s.sessions (s.heap o).sessionId with
    | some _ => locked .clientPathsMu .shared []
    | none => []

/-- What `cleanupTCPConn` asks for. -/
def cleanupOps (s : State) (c : ConnId) : List (Op Lock) :=
  locked Lock.tcpConnToSessionMu .shared [] ++
    match s.tcpConnToSession c with
    | some _ => locked .clientPathsMu .exclusive [] ++ locked Lock.tcpConnToSessionMu .exclusive []
    | none => []

/-- The path is of a TCP connection. -/
def ClientPath.isTcp : ClientPath → Bool
  | .udp _ _ => false
  | .tcp _ => true

/-- What `cleanupExpiredSessions` asks for: for every session that has expired, under the lock of
the path lists, the connections once for each TCP path. -/
def sweepOps (s : State) (now : ℕ) : List (Op Lock) :=
  locked Lock.sessionsMu .exclusive
    (((List.range s.nextTarget).filter (stored s (expired s now))).flatMap fun o =>
      locked .clientPathsMu .exclusive
        (((s.clientPaths (s.heap o).sessionId).filter ClientPath.isTcp).flatMap fun _ =>
          locked .tcpConnToSessionMu .exclusive []))

/-- What a step of `Stop` asks for. -/
def stopOps : StopPc → List (Op Lock)
  | .sessions => locked .sessionsMu .exclusive []
  | .paths => locked .clientPathsMu .exclusive []
  | .conns => locked .tcpConnToSessionMu .exclusive []
  | _ => []

/-- What the next section of a goroutine asks for. -/
def sectionOps (s : State) (g : Goroutine) : List (Op Lock) :=
  match g, s.goroutines g with
  | _, some (.lookup _ _ _) => locked .sessionsMu .shared []
  | _, some (.create _ _ _) => locked .sessionsMu .exclusive []
  | _, some (.found path _ seq o) => admitOps s path seq o
  | .targetResponse o, some .respond => respondOps s o
  | .tcpConn c, some .cleanup => cleanupOps s c
  | _, _ => []

/-- What the section of an event asks for. -/
def lockOps (s : State) : Event → List (Op Lock)
  | .proceed g _ _ => sectionOps s g
  | .sweep now => sweepOps s now
  | .stop => stopOps s.stop
  | _ => []

theorem addPathOps_balanced (path : ClientPath) : Balanced Lock.rank 0 (addPathOps path) := by
  cases path with
  | udp addr l => exact .single
  | tcp c => exact Balanced.single.append .single

theorem admitOps_balanced (s : State) (path : ClientPath) (seq : UInt32) (o : ObjId) :
    Balanced Lock.rank 0 (admitOps s path seq o) := by
  refine (Balanced.single.append .single).append ?_
  split
  · exact .nil
  · exact addPathOps_balanced path

theorem respondOps_balanced (s : State) (o : ObjId) :
    Balanced Lock.rank 0 (respondOps s o) := by
  refine (Balanced.single.append .single).append ?_
  split
  · exact .single
  · exact .nil

theorem cleanupOps_balanced (s : State) (c : ConnId) :
    Balanced Lock.rank 0 (cleanupOps s c) := by
  refine Balanced.single.append ?_
  split
  · exact Balanced.single.append .single
  · exact .nil

/-- The three locks of a sweep are taken in order. -/
theorem sweepOps_balanced (s : State) (now : ℕ) : Balanced Lock.rank 0 (sweepOps s now) := by
  refine .locked (Nat.zero_le _) (.flatMap fun o _ => ?_)
  refine .locked (Nat.le_refl 1) (.flatMap fun path _ => ?_)
  exact .short (Nat.le_refl 2)

theorem stopOps_balanced (pc : StopPc) : Balanced Lock.rank 0 (stopOps pc) := by
  unfold stopOps
  split
  · exact .single
  · exact .single
  · exact .single
  · exact .nil

/-- Every section takes its locks in order. -/
theorem lockOps_balanced (s : State) (e : Event) : Balanced Lock.rank 0 (lockOps s e) := by
  cases e with
  | proceed g now connected =>
      rw [lockOps, sectionOps.eq_def]
      split
      · exact .single
      · exact .single
      · exact admitOps_balanced s _ _ _
      · exact respondOps_balanced s _
      · exact cleanupOps_balanced s _
      · exact .nil
  | sweep now => exact sweepOps_balanced s now
  | stop => exact stopOps_balanced s.stop
  | _ => exact .nil

theorem addPathOps_no_call (path : ClientPath) : .call ∉ addPathOps path := by
  cases path <;> simp [addPathOps, locked]

/-- No section makes a call under a lock. -/
theorem lockOps_no_call (s : State) (e : Event) : .call ∉ lockOps s e := by
  cases e with
  | proceed g now connected =>
      rw [lockOps, sectionOps.eq_def]
      split
      · simp [locked]
      · simp [locked]
      · rw [admitOps]
        split
        · simp [locked]
        · simpa [locked] using addPathOps_no_call _
      · rw [respondOps]
        split <;> simp [locked]
      · rw [cleanupOps]
        split <;> simp [locked]
      · exact List.not_mem_nil
  | sweep now => simp [lockOps, sweepOps, locked]
  | stop =>
      rw [lockOps, stopOps.eq_def]
      split <;> simp [locked]
  | _ => exact List.not_mem_nil

theorem Lock.rank_lt (l : Lock) : l.rank < 3 := by
  cases l <;> simp [Lock.rank]

/-- **The Go server never deadlocks.**  Let its goroutines and `Stop` go through the sections of any
run, ask for the locks in any order, and let the locks be given to whoever waits, as long as a free
lock is given to someone: nobody waits for ever, and everybody comes to the end of its sections. -/
theorem go_server_never_deadlocks (cfg : ServerConfig) {admits : Admits Worker Lock}
    (hlive : Live admits) (es : List Event) :
    NeverStuck (es.map Event.worker)
      (lockMachine (machine cfg) Event.worker lockOps admits es) :=
  sections_neverStuck (machine cfg) lockOps_balanced lockOps_no_call hlive Lock.rank_lt es

/-- A configuration whose sessions expire after ten units of time. -/
def shortTimeout : ServerConfig := ⟨100, 10⟩

/-- A packet comes in over TCP, and its session is swept. -/
def packetThenSweep : List Event :=
  [.listen .tcp, .startCleanup, .select (.tcpListener 0), .accept 0, .select (.tcpConn 0),
    .lengthRead 0 13, .dataRead 0 (Protocol.encodePacket 1 0 [7]), .proceed (.tcpConn 0) 0 true,
    .proceed (.tcpConn 0) 0 true, .proceed (.tcpConn 0) 0 true, .sweep 20]

/-- A schedule: the handler stands in `addTCPPath` when the sweep has come to its third lock. -/
def thirdLock : List (Locks.Event Worker) :=
  let handler : Worker := .goroutine (.tcpConn 0)
  let sweeper : Worker := .goroutine .sessionCleanup
  (List.replicate 4
    ([.move handler, .grant handler, .move handler] : List (Locks.Event Worker))).flatten ++
    ([.move handler, .grant handler, .move sweeper, .grant sweeper, .move sweeper, .grant sweeper,
      .move sweeper] : List (Locks.Event Worker))

theorem go_server_never_deadlocks_third_lock :
    ∃ s tr, (lockMachine (machine shortTimeout) Event.worker lockOps fifo packetThenSweep).exec
        thirdLock = some (s, tr) ∧
      s.Holds (.goroutine .sessionCleanup) .sessionsMu ∧
      s.Holds (.goroutine (.tcpConn 0)) .tcpConnToSessionMu ∧
      ∃ u, Relation.ReflTransGen (Blocks s) (.goroutine .sessionCleanup) u ∧ Free s u := by
  have hview : ((lockMachine (machine shortTimeout) Event.worker lockOps fifo
      packetThenSweep).exec thirdLock).map (fun r =>
        (decide ((r.1.tasks (.goroutine .sessionCleanup)).rest ≠ []),
          (r.1.tasks (.goroutine .sessionCleanup)).held,
          (r.1.tasks (.goroutine (.tcpConn 0))).held)) =
      some (true, [(.clientPathsMu, .exclusive), (.sessionsMu, .exclusive)],
        [(.tcpConnToSessionMu, .exclusive)]) := by decide
  obtain ⟨⟨s, tr⟩, hrun, hv⟩ := Option.map_eq_some_iff.mp hview
  simp only [Prod.mk.injEq, decide_eq_true_eq] at hv
  obtain ⟨hrest, hsweeper, hhandler⟩ := hv
  have hfree :=
    (go_server_never_deadlocks shortTimeout live_fifo packetThenSweep _ s tr hrun).2.1
  refine ⟨s, tr, hrun, ⟨.exclusive, ?_⟩, ⟨.exclusive, ?_⟩, hfree _ hrest⟩
  · rw [hsweeper]
    exact List.mem_cons_of_mem _ List.mem_cons_self
  · rw [hhandler]
    exact List.mem_cons_self

end Fproxy.GoServer
