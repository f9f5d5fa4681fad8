import Fproxy.Config
import Fproxy.DedupWindow.Go
import Fproxy.Protocol
import Fproxy.Server.State

/-!
# The Go server as a machine of goroutines

`server.go` runs one goroutine for each listener, for each accepted TCP connection and for each
target socket, and one that sweeps expired sessions.  All of them are counted in `s.wg`.  `Stop`
runs beside them: it cancels the context, closes sockets, empties the tables and waits for `wg`.

* `Pc` — where a goroutine stands: at the `select` on its context, in a read, in a section of the
  handling of a packet, in its deferred clean-up.
* `StopPc` — how far `Stop` has come.
* `step` — one section of one goroutine, or one step of `Stop`.

A goroutine in a read stays there until an event ends the read.  What goes out on the paths, and
the numbers of the responses, are not modelled: no goroutine reads them.
-/

namespace Fproxy.GoServer

open Fproxy.Protocol Fproxy.Runs
open Fproxy.Server (ListenerId ObjId)

/-- The part of `config.ServerConfig` that the running server reads. -/
structure ServerConfig where
  dedupWindow : Int64
  sessionTimeout : ℕ

/-- What the server can close. -/
inductive Socket where
  | listener (l : ListenerId)
  | conn (c : ConnId)
  | target (o : ObjId)
  deriving DecidableEq

/-- `ClientPath`. -/
inductive ClientPath where
  | udp (addr : SocketAddr) (conn : ListenerId)
  | tcp (conn : ConnId)
  deriving DecidableEq

/-- `TargetSession`, with the id its `handleTargetResponse` was started for.  Its `targetConn` is
named by the object. -/
structure TargetSession where
  sessionId : UInt64
  dedupWindow : GoDedupWindow
  lastActivity : ℕ
  cancelled : Bool
  deriving DecidableEq

/-- The goroutines counted in `wg`. -/
inductive Goroutine where
  /-- `handleUDPListener`. -/
  | udpListener (l : ListenerId)
  /-- `handleTCPListener`. -/
  | tcpListener (l : ListenerId)
  /-- `handleTCPConn`. -/
  | tcpConn (c : ConnId)
  /-- `handleTargetResponse`. -/
  | targetResponse (o : ObjId)
  /-- `sessionCleanupLoop`. -/
  | sessionCleanup
  deriving DecidableEq

/-- Where a goroutine stands. -/
inductive Pc where
  /-- The `select` on the context at the head of the loop. -/
  | check
  /-- `ReadFromUDP`, `Accept`, `io.ReadFull` of a length, or `Read` from the target. -/
  | read
  /-- `io.ReadFull` of the packet that a length announced. -/
  | readData (length : ℕ)
  /-- The read-locked check of `getOrCreateSession`; `path` is where the packet came in. -/
  | lookup (path : ClientPath) (sessionId : UInt64) (seq : UInt32)
  /-- Its write-locked check and creation. -/
  | create (path : ClientPath) (sessionId : UInt64) (seq : UInt32)
  /-- `handleUDPPacket` or `handleTCPPacket`, once it has its session. -/
  | found (path : ClientPath) (sessionId : UInt64) (seq : UInt32) (o : ObjId)
  /-- `handleTargetResponse` with a datagram in hand. -/
  | respond
  /-- The deferred `cleanupTCPConn`. -/
  | cleanup
  deriving DecidableEq

/-- The next step of `Stop`. -/
inductive StopPc where
  /-- `Stop` has not been called. -/
  | running
  /-- The context is cancelled, the first `n` listeners are closed. -/
  | listeners (n : ℕ)
  /-- Closing the sessions. -/
  | sessions
  /-- Clearing the client paths. -/
  | paths
  /-- Clearing the TCP connection mappings. -/
  | conns
  /-- `wg.Wait`. -/
  | waiting
  deriving DecidableEq

/-- The server, its goroutines (`none` for one that `wg` does not count) and `Stop`. -/
structure State where
  cfg : ServerConfig
  listeners : List Config.Protocol
  closed : Socket → Bool
  ctxDone : Bool
  heap : ObjId → TargetSession
  nextTarget : ObjId
  nextConn : ConnId
  sessions : UInt64 → Option ObjId
  clientPaths : UInt64 → List ClientPath
  tcpConnToSession : ConnId → Option UInt64
  goroutines : Goroutine → Option Pc
  stop : StopPc

/-- The session that `getOrCreateSession` builds. -/
def TargetSession.new (cfg : ServerConfig) (sessionId : UInt64) (now : ℕ) : TargetSession where
  sessionId := sessionId
  dedupWindow := .new cfg.dedupWindow
  lastActivity := now
  cancelled := false

/-- `New`. -/
def new (cfg : ServerConfig) : State where
  cfg := cfg
  listeners := []
  closed := fun _ => false
  ctxDone := false
  heap := fun _ => .new cfg 0 0
  nextTarget := 0
  nextConn := 0
  sessions := fun _ => none
  clientPaths := fun _ => []
  tcpConnToSession := fun _ => none
  goroutines := fun _ => none
  stop := .running

namespace State

/-- Move a goroutine, start it, or take it off `wg`. -/
def setGoroutine (s : State) (g : Goroutine) (pc : Option Pc) : State :=
  { s with goroutines := Function.update s.goroutines g pc }

/-- Close a socket. -/
def close (s : State) (k : Socket) : State :=
  { s with closed := Function.update s.closed k true }

end State

/-! ### Sessions and paths -/

/-- The write-locked section of `getOrCreateSession`: look again, else dial the target (`connected`
tells whether that succeeded), store a session and start `handleTargetResponse`. -/
def createSession (s : State) (sessionId : UInt64) (now : ℕ) (connected : Bool) :
    State × Option ObjId :=
  match s.sessions sessionId with
  | some o => (s, some o)
  | none =>
      if connected then
        ({ s with
            heap := Function.update s.heap s.nextTarget (.new s.cfg sessionId now)
            nextTarget := s.nextTarget + 1
            sessions := Function.update s.sessions sessionId (some s.nextTarget) }.setGoroutine
              (.targetResponse s.nextTarget) (some .check),
          some s.nextTarget)
      else (s, none)

/-- `session.lastActivity = time.Now()`. -/
def touch (s : State) (o : ObjId) (now : ℕ) : State :=
  { s with heap := Function.update s.heap o { s.heap o with lastActivity := now } }

/-- The path of a UDP listener. -/
def ClientPath.isUdp (l : ListenerId) : ClientPath → Bool
  | .udp _ conn => conn = l
  | .tcp _ => false

/-- The loop of `addUDPPath`: the first path of the listener gets the new address. -/
def updateUdpPath (addr : SocketAddr) (l : ListenerId) : List ClientPath → List ClientPath
  | [] => [.udp addr l]
  | p :: rest => if p.isUdp l then .udp addr l :: rest else p :: updateUdpPath addr l rest

/-- `addUDPPath` and `addTCPPath`. -/
def addPath (s : State) (sessionId : UInt64) : ClientPath → State
  | .udp addr l =>
      { s with
        clientPaths := Function.update s.clientPaths sessionId
          (updateUdpPath addr l (s.clientPaths sessionId)) }
  | .tcp c =>
      { s with
        tcpConnToSession := Function.update s.tcpConnToSession c (some sessionId)
        clientPaths := Function.update s.clientPaths sessionId
          (if .tcp c ∈ s.clientPaths sessionId then s.clientPaths sessionId
            else s.clientPaths sessionId ++ [.tcp c]) }

/-- `handleUDPPacket` or `handleTCPPacket`, from the update of `lastActivity` on. -/
def admitPacket (s : State) (path : ClientPath) (sessionId : UInt64) (seq : UInt32) (o : ObjId)
    (now : ℕ) : State :=
  let s := touch s o now
  match (s.heap o).dedupWindow.isDuplicate seq with
  | (true, _) => s
  | (false, window) =>
      addPath
        { s with heap := Function.update s.heap o { s.heap o with dedupWindow := window } }
        sessionId path

/-- `cleanupTCPConn`. -/
def cleanupTcpConn (s : State) (c : ConnId) : State :=
  match s.tcpConnToSession c with
  | none => s.close (.conn c)
  | some sessionId =>
      { s with
        clientPaths := Function.update s.clientPaths sessionId
          ((s.clientPaths sessionId).erase (.tcp c))
        tcpConnToSession := Function.update s.tcpConnToSession c none }.close (.conn c)

/-- `now.Sub(session.lastActivity) > timeout` for the session stored under an id. -/
def expired (s : State) (now : ℕ) (sessionId : UInt64) : Bool :=
  match s.sessions sessionId with
  | none => false
  | some o => s.cfg.sessionTimeout < now - (s.heap o).lastActivity

/-- A session object that is in the table under an id that satisfies `p`. -/
def stored (s : State) (p : UInt64 → Bool) (o : ObjId) : Bool :=
  s.sessions (s.heap o).sessionId = some o && p (s.heap o).sessionId

/-- The loop that `cleanupExpiredSessions` and `Stop` run over `sessions`, for the ids that satisfy
`p`: cancel the session, close its target socket, delete it. -/
def closeSessions (s : State) (p : UInt64 → Bool) : State :=
  { s with
    heap := fun o => if stored s p o then { s.heap o with cancelled := true } else s.heap o
    closed := fun k => match k with
      | .target o => stored s p o || s.closed k
      | _ => s.closed k
    sessions := fun sid => if p sid then none else s.sessions sid }

/-- `cleanupExpiredSessions`, under the lock of `sessions`: the path list of an expired session
goes too, and the TCP connections on it are no longer mapped, to whatever session. -/
def cleanupExpiredSessions (s : State) (now : ℕ) : State :=
  { closeSessions s (expired s now) with
    clientPaths := fun sid => if expired s now sid then [] else s.clientPaths sid
    tcpConnToSession := fun c =>
      if (List.range s.nextTarget).any fun o =>
          stored s (expired s now) o && .tcp c ∈ s.clientPaths (s.heap o).sessionId then none
      else s.tcpConnToSession c }

/-! ### Goroutines -/

/-- `ctx.Done()` of a goroutine: a session's context ends with the session or with the server. -/
def done (s : State) : Goroutine → Bool
  | .targetResponse o => (s.heap o).cancelled || s.ctxDone
  | _ => s.ctxDone

/-- A goroutine returns: `handleTCPConn` through its deferred clean-up, the others at once. -/
def leave (s : State) (g : Goroutine) : State :=
  match g with
  | .tcpConn _ => s.setGoroutine g (some .cleanup)
  | _ => s.setGoroutine g none

/-- A packet was read. -/
def received (s : State) (g : Goroutine) (path : ClientPath) (data : List UInt8) : State :=
  match decodePacket data with
  | .error _ => s.setGoroutine g (some .check)
  | .ok (sessionId, seq, _) => s.setGoroutine g (some (.lookup path sessionId seq))

/-- One move. -/
inductive Event where
  /-- `startUDPListener` or `startTCPListener`. -/
  | listen (protocol : Config.Protocol)
  /-- `Start` starts `sessionCleanupLoop`. -/
  | startCleanup
  /-- The `select` of a goroutine. -/
  | select (g : Goroutine)
  | datagram (l : ListenerId) (addr : SocketAddr) (data : List UInt8)
  | accept (l : ListenerId)
  | lengthRead (c : ConnId) (length : UInt16)
  | dataRead (c : ConnId) (data : List UInt8)
  | targetRead (o : ObjId)
  /-- The deadline of `handleTargetResponse`. -/
  | deadline (o : ObjId)
  /-- A read or an accept fails, for example because its socket is closed. -/
  | readFails (g : Goroutine)
  /-- The next section of a goroutine that has read something, or of its clean-up. -/
  | proceed (g : Goroutine) (now : ℕ) (connected : Bool)
  /-- The ticker of `sessionCleanupLoop`. -/
  | sweep (now : ℕ)
  /-- The next step of `Stop`. -/
  | stop
  deriving DecidableEq

/-- The goroutine of a listener. -/
def listenerGoroutine (l : ListenerId) : Config.Protocol → Goroutine
  | .udp => .udpListener l
  | .tcp => .tcpListener l

/-- The next section of a goroutine. -/
def stepSection (s : State) (g : Goroutine) (now : ℕ) (connected : Bool) : Option State :=
  match g, s.goroutines g with
  | _, some (.lookup path sessionId seq) =>
      match s.sessions sessionId with
      | some o => some (s.setGoroutine g (some (.found path sessionId seq o)))
      | none => some (s.setGoroutine g (some (.create path sessionId seq)))
  | _, some (.create path sessionId seq) =>
      match createSession s sessionId now connected with
      | (s, some o) => some (s.setGoroutine g (some (.found path sessionId seq o)))
      | (s, none) => some (s.setGoroutine g (some .check))
  | _, some (.found path sessionId seq o) =>
      some ((admitPacket s path sessionId seq o now).setGoroutine g (some .check))
  | .targetResponse o, some .respond =>
      match s.sessions (s.heap o).sessionId with
      | some o' => some ((touch s o' now).setGoroutine g (some .check))
      | none => some (s.setGoroutine g (some .check))
  | .tcpConn c, some .cleanup => some ((cleanupTcpConn s c).setGoroutine g none)
  | _, _ => none

/-- The next step of `Stop`; none once it waits. -/
def stepStop (s : State) : Option State :=
  match s.stop with
  | .running => some { s with ctxDone := true, stop := .listeners 0 }
  | .listeners n =>
      if n < s.listeners.length then some { s.close (.listener n) with stop := .listeners (n + 1) }
      else some { s with stop := .sessions }
  | .sessions => some { closeSessions s (fun _ => true) with stop := .paths }
  | .paths => some { s with clientPaths := fun _ => [], stop := .conns }
  | .conns => some { s with tcpConnToSession := fun _ => none, stop := .waiting }
  | .waiting => none

/-- A read of a socket can succeed only while it is open. -/
def reading (s : State) (g : Goroutine) (k : Socket) (pc : Pc) : Bool :=
  s.goroutines g = some pc && !s.closed k

/-- One move; `none` where the event cannot occur. -/
def step (s : State) : Event → Option State
  | .listen protocol =>
      if s.stop = .running then
        some ({ s with listeners := s.listeners ++ [protocol] }.setGoroutine
          (listenerGoroutine s.listeners.length protocol) (some .check))
      else none
  | .startCleanup =>
      if s.stop = .running ∧ s.goroutines .sessionCleanup = none then
        some (s.setGoroutine .sessionCleanup (some .check))
      else none
  | .select g =>
      if s.goroutines g = some .check then
        if done s g then some (leave s g)
        -- `sessionCleanupLoop` has no default branch
        else if g = .sessionCleanup then none
        else some (s.setGoroutine g (some .read))
      else none
  | .datagram l addr data =>
      if reading s (.udpListener l) (.listener l) .read then
        some (received s (.udpListener l) (.udp addr l) data)
      else none
  | .accept l =>
      if reading s (.tcpListener l) (.listener l) .read then
        some (({ s with nextConn := s.nextConn + 1 }.setGoroutine (.tcpListener l)
          (some .check)).setGoroutine (.tcpConn s.nextConn) (some .check))
      else none
  | .lengthRead c length =>
      if reading s (.tcpConn c) (.conn c) .read then
        if length = 0 then some (leave s (.tcpConn c))
        else some (s.setGoroutine (.tcpConn c) (some (.readData length.toNat)))
      else none
  | .dataRead c data =>
      if reading s (.tcpConn c) (.conn c) (.readData data.length) then
        some (received s (.tcpConn c) (.tcp c) data)
      else none
  | .targetRead o =>
      if reading s (.targetResponse o) (.target o) .read then
        some (s.setGoroutine (.targetResponse o) (some .respond))
      else none
  | .deadline o =>
      if s.goroutines (.targetResponse o) = some .read then
        some (s.setGoroutine (.targetResponse o) (some .check))
      else none
  | .readFails g =>
      match g, s.goroutines g with
      | .udpListener _, some .read | .tcpListener _, some .read =>
          if s.ctxDone then some (leave s g) else some (s.setGoroutine g (some .check))
      | .tcpConn _, some .read | .tcpConn _, some (.readData _) | .targetResponse _, some .read =>
          some (leave s g)
      | _, _ => none
  | .proceed g now connected => stepSection s g now connected
  | .sweep now =>
      if s.goroutines .sessionCleanup = some .check then some (cleanupExpiredSessions s now)
      else none
  | .stop => stepStop s

/-- The Go server of a configuration; it is observed through its states. -/
def machine (cfg : ServerConfig) : Machine State Event Empty where
  init := new cfg
  step := fun s e => (step s e).map fun s' => (s', [])

end Fproxy.GoServer
