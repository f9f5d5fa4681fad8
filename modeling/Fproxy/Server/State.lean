import Fproxy.DedupWindow
import Fproxy.Net
import Fproxy.TcpFraming

/-!
# The server: shared state and lock-protected sections

`server.rs` keeps three tables behind locks: the target sessions by session id, the client paths
by session id, and the session of each TCP connection.  A handler never holds a lock across two
of its sections, so each section below is one atomic action on the `Server`; the handlers
themselves are sequences of sections (`Fproxy.Server.Handlers` runs them back to back,
`Fproxy.Server.Machine` interleaves them).

Session objects are shared through `Arc`s, so a handler can hold one that is no longer in the
table.  They live in a heap, and the tables and the handlers hold references into it.  The
target socket of a session is named by its object.
-/

namespace Fproxy

/-- An address to run with. -/
def demoAddr : SocketAddr := ⟨.v4 0x7f000001, 5000⟩

/-- A TCP connection.  The source names it by the address of the `Arc` of its write half, which is
unique as long as anything refers to the connection. -/
abbrev ConnId := ℕ

end Fproxy

namespace Fproxy.Server

open Fproxy.Protocol Fproxy.TcpFraming

/-- A UDP listener, identified by its socket. -/
abbrev ListenerId := ℕ

/-- A session object (and its target socket). -/
abbrev ObjId := ℕ

/-- `ServerConfig` as `Config::validate` lets it through: the window has a positive size. -/
structure ServerConfig where
  dedupWindow : ℕ
  sessionTimeout : ℕ
  dedupWindow_pos : 1 ≤ dedupWindow

/-- `ClientPath`. -/
inductive ClientPath where
  | udp (addr : SocketAddr) (socket : ListenerId)
  | tcp (connId : ConnId) (writer : ConnId)
  deriving DecidableEq

/-- `TargetSession`, with the id its response task was spawned for; `cancelled` tells whether the
session's own token was cancelled, which it also is with the token of the server, its parent. -/
structure TargetSession where
  sessionId : UInt64
  dedupWindow : DedupWindow
  responseSeq : UInt32
  lastActivity : ℕ
  cancelled : Bool

/-- Where `handle_target_response` of a session stands. -/
inductive ReceiverPc where
  | idle
  | recv
  | touch (payload : List UInt8)
  | number (payload : List UInt8)
  | paths (payload : List UInt8) (seq : UInt32)
  | sending (payload : List UInt8) (seq : UInt32) (rest : List ClientPath)
  | done
  deriving DecidableEq

/-- The task was spawned and has not returned. -/
def ReceiverPc.Running : ReceiverPc → Prop
  | .idle => False
  | .done => False
  | _ => True

instance (pc : ReceiverPc) : Decidable pc.Running := by
  cases pc <;> unfold ReceiverPc.Running <;> infer_instance

end Fproxy.Server

namespace Fproxy

open Fproxy.Server

/-- `Server`: the tables, the heap of session objects and the response tasks. -/
structure Server where
  cfg : ServerConfig
  heap : ObjId → TargetSession
  next : ObjId
  sessions : UInt64 → Option ObjId
  clientPaths : UInt64 → Option (List ClientPath)
  tcpConnToSession : ConnId → Option UInt64
  receivers : ObjId → ReceiverPc

end Fproxy

namespace Fproxy.Server

open Fproxy.Protocol Fproxy.TcpFraming

/-- A fresh session object. -/
def TargetSession.new (cfg : ServerConfig) (sessionId : UInt64) (now : ℕ) : TargetSession where
  sessionId := sessionId
  dedupWindow := .new cfg.dedupWindow
  responseSeq := 0
  lastActivity := now
  cancelled := false

/-- `Server::new`. -/
def new (cfg : ServerConfig) : Server where
  cfg := cfg
  heap := fun _ => TargetSession.new cfg 0 0
  next := 0
  sessions := fun _ => none
  clientPaths := fun _ => none
  tcpConnToSession := fun _ => none
  receivers := fun _ => .idle

/-- What the server does to the outside, and what its windows decide. -/
inductive Obs where
  /-- `is_duplicate` was called on the window of an object. -/
  | checked (o : ObjId) (seq : UInt32) (payload : List UInt8) (dup : Bool)
  /-- `target_conn.send` on the target socket of an object, and whether it succeeded. -/
  | forwarded (o : ObjId) (sessionId : UInt64) (seq : UInt32) (payload : List UInt8) (ok : Bool)
  /-- A datagram was read from the target socket of an object. -/
  | targetRead (o : ObjId) (sessionId : UInt64) (payload : List UInt8)
  /-- A response left through a UDP listener. -/
  | sentUdp (socket : ListenerId) (addr : SocketAddr) (data : List UInt8)
  /-- A frame was written to a TCP connection. -/
  | sentTcp (conn : ConnId) (frame : List UInt8)
  deriving DecidableEq

/-! ### Sections of `get_or_create_session` -/

/-- The write-locked section: look again, else bind and connect a target socket (`connected`
tells whether that succeeded), store a fresh session and spawn its response task. -/
def createSession (s : Server) (sessionId : UInt64) (now : ℕ) (connected : Bool) :
    Server × Option (ObjId × Bool) :=
  match s.sessions sessionId with
  | some o => (s, some (o, false))
  | none =>
      if connected then
        ({ s with
            heap := Function.update s.heap s.next (.new s.cfg sessionId now)
            next := s.next + 1
            sessions := Function.update s.sessions sessionId (some s.next)
            receivers := Function.update s.receivers s.next .recv },
          some (s.next, true))
      else (s, none)

/-- `get_or_create_session`, its read-locked check included. -/
def getOrCreateSession (s : Server) (sessionId : UInt64) (now : ℕ) (connected : Bool) :
    Server × Option (ObjId × Bool) :=
  match s.sessions sessionId with
  | some o => (s, some (o, false))
  | none => createSession s sessionId now connected

/-! ### Sections on a session object -/

/-- `*session.last_activity.write().await = now`. -/
def touch (s : Server) (o : ObjId) (now : ℕ) : Server :=
  { s with heap := Function.update s.heap o { s.heap o with lastActivity := now } }

/-- `session.dedup_window.write().await.is_duplicate(seq)`. -/
def checkDuplicate (s : Server) (o : ObjId) (seq : UInt32) : Bool × Server :=
  let r := (s.heap o).dedupWindow.isDuplicate seq
  (r.1, { s with heap := Function.update s.heap o { s.heap o with dedupWindow := r.2 } })

/-- `session.response_seq.fetch_add(1)`. -/
def takeResponseSeq (s : Server) (o : ObjId) : UInt32 × Server :=
  ((s.heap o).responseSeq,
    { s with
      heap := Function.update s.heap o
        { s.heap o with responseSeq := (s.heap o).responseSeq + 1 } })

@[simp] theorem touch_sessionId (s : Server) (o o' : ObjId) (now : ℕ) :
    ((s.touch o now).heap o').sessionId = (s.heap o').sessionId := by
  by_cases h : o' = o <;> simp [touch, h]

@[simp] theorem touch_dedupWindow (s : Server) (o o' : ObjId) (now : ℕ) :
    ((s.touch o now).heap o').dedupWindow = (s.heap o').dedupWindow := by
  by_cases h : o' = o <;> simp [touch, h]

@[simp] theorem checkDuplicate_sessionId (s : Server) (o o' : ObjId) (seq : UInt32) :
    ((s.checkDuplicate o seq).2.heap o').sessionId = (s.heap o').sessionId := by
  by_cases h : o' = o <;> simp [checkDuplicate, h]

theorem checkDuplicate_dedupWindow (s : Server) (o o' : ObjId) (seq : UInt32) :
    ((s.checkDuplicate o seq).2.heap o').dedupWindow =
      if o' = o then ((s.heap o).dedupWindow.isDuplicate seq).2 else (s.heap o').dedupWindow := by
  by_cases h : o' = o <;> simp [checkDuplicate, h]

@[simp] theorem takeResponseSeq_sessionId (s : Server) (o o' : ObjId) :
    ((s.takeResponseSeq o).2.heap o').sessionId = (s.heap o').sessionId := by
  by_cases h : o' = o <;> simp [takeResponseSeq, h]

@[simp] theorem takeResponseSeq_dedupWindow (s : Server) (o o' : ObjId) :
    ((s.takeResponseSeq o).2.heap o').dedupWindow = (s.heap o').dedupWindow := by
  by_cases h : o' = o <;> simp [takeResponseSeq, h]

/-! ### Sections on the path lists -/

/-- The loop of `add_udp_path` over the paths of a session. -/
def updateUdpPath (addr : SocketAddr) (socket : ListenerId) : List ClientPath → List ClientPath
  | [] => [.udp addr socket]
  | .udp a s :: rest =>
      if s = socket then (if a ≠ addr then .udp addr s else .udp a s) :: rest
      else .udp a s :: updateUdpPath addr socket rest
  | .tcp c w :: rest => .tcp c w :: updateUdpPath addr socket rest

/-- `add_udp_path`. -/
def addUdpPath (s : Server) (sessionId : UInt64) (addr : SocketAddr) (socket : ListenerId) :
    Server :=
  { s with
    clientPaths := Function.update s.clientPaths sessionId
      (some (updateUdpPath addr socket ((s.clientPaths sessionId).getD []))) }

/-- The first section of `add_tcp_path`. -/
def trackTcpConn (s : Server) (sessionId : UInt64) (connId : ConnId) : Server :=
  { s with tcpConnToSession := Function.update s.tcpConnToSession connId (some sessionId) }

/-- A path of this connection. -/
def ClientPath.isTcp (connId : ConnId) : ClientPath → Bool
  | .udp _ _ => false
  | .tcp c _ => c = connId

/-- The loop of `add_tcp_path` over the paths of a session. -/
def updateTcpPath (connId writer : ConnId) (paths : List ClientPath) : List ClientPath :=
  if paths.any (fun p => match p with
      | .udp _ _ => false
      | .tcp c w => c = connId || w = writer) then paths
  else paths ++ [.tcp connId writer]

/-- The second section of `add_tcp_path`. -/
def registerTcpPath (s : Server) (sessionId : UInt64) (connId writer : ConnId) : Server :=
  { s with
    clientPaths := Function.update s.clientPaths sessionId
      (some (updateTcpPath connId writer ((s.clientPaths sessionId).getD []))) }

/-- The first section of `cleanup_tcp_conn`. -/
def untrackTcpConn (s : Server) (connId : ConnId) : Option UInt64 × Server :=
  (s.tcpConnToSession connId,
    { s with tcpConnToSession := Function.update s.tcpConnToSession connId none })

/-- The second section of `cleanup_tcp_conn`: only the list of the tracked session is searched. -/
def removeTcpPath (s : Server) (sessionId : Option UInt64) (connId : ConnId) : Server :=
  match sessionId with
  | none => s
  | some sid =>
      match s.clientPaths sid with
      | none => s
      | some paths =>
          { s with
            clientPaths := Function.update s.clientPaths sid
              (some (paths.filter fun p => !p.isTcp connId)) }

/-- The clean-up of a connection touches nothing but the lists. -/
theorem removeTcpPath_eq (s : Server) (sessionId : Option UInt64) (connId : ConnId) :
    s.removeTcpPath sessionId connId =
      { s with clientPaths := (s.removeTcpPath sessionId connId).clientPaths } := by
  unfold removeTcpPath
  split
  · rfl
  · split <;> rfl

@[simp] theorem removeTcpPath_cfg (s : Server) (k : Option UInt64) (c : ConnId) :
    (s.removeTcpPath k c).cfg = s.cfg := by rw [removeTcpPath_eq]

@[simp] theorem removeTcpPath_heap (s : Server) (k : Option UInt64) (c : ConnId) :
    (s.removeTcpPath k c).heap = s.heap := by rw [removeTcpPath_eq]

@[simp] theorem removeTcpPath_next (s : Server) (k : Option UInt64) (c : ConnId) :
    (s.removeTcpPath k c).next = s.next := by rw [removeTcpPath_eq]

@[simp] theorem removeTcpPath_sessions (s : Server) (k : Option UInt64) (c : ConnId) :
    (s.removeTcpPath k c).sessions = s.sessions := by rw [removeTcpPath_eq]

@[simp] theorem removeTcpPath_receivers (s : Server) (k : Option UInt64) (c : ConnId) :
    (s.removeTcpPath k c).receivers = s.receivers := by rw [removeTcpPath_eq]

/-! ### The expiry sweep -/

/-- `now.duration_since(last_activity) > timeout` for the session stored under an id. -/
def expired (s : Server) (now : ℕ) (sessionId : UInt64) : Bool :=
  match s.sessions sessionId with
  | none => false
  | some o => s.cfg.sessionTimeout < now - (s.heap o).lastActivity

/-- `cleanup_expired_sessions`, under the write lock of `sessions`. -/
def cleanupExpiredSessions (s : Server) (now : ℕ) : Server :=
  { s with
    sessions := fun sid => if s.expired now sid then none else s.sessions sid
    clientPaths := fun sid => if s.expired now sid then none else s.clientPaths sid
    heap := fun o =>
      let t := s.heap o
      if s.sessions t.sessionId = some o ∧ s.expired now t.sessionId then
        { t with cancelled := true }
      else t }

@[simp] theorem cleanupExpiredSessions_sessionId (s : Server) (now : ℕ) (o : ObjId) :
    ((s.cleanupExpiredSessions now).heap o).sessionId = (s.heap o).sessionId := by
  simp only [cleanupExpiredSessions]
  split <;> rfl

@[simp] theorem cleanupExpiredSessions_dedupWindow (s : Server) (now : ℕ) (o : ObjId) :
    ((s.cleanupExpiredSessions now).heap o).dedupWindow = (s.heap o).dedupWindow := by
  simp only [cleanupExpiredSessions]
  split <;> rfl

theorem sessions_of_cleanupExpiredSessions {s : Server} {now : ℕ} {sid : UInt64} {o : ObjId}
    (h : (s.cleanupExpiredSessions now).sessions sid = some o) :
    s.expired now sid = false ∧ s.sessions sid = some o := by
  simp only [cleanupExpiredSessions] at h
  split at h
  · exact absurd h (by simp)
  · next he => exact ⟨by simpa using he, h⟩

/-! ### Sending a response -/

/-- The bytes a response puts on a path: over TCP the frame with its 16-bit prefix. -/
def sendOnPath (sessionId : UInt64) (seq : UInt32) (payload : List UInt8) : ClientPath → Obs
  | .udp addr socket => .sentUdp socket addr (encodeUdp sessionId seq payload)
  | .tcp _ writer => .sentTcp writer (tcpFrame (encodeTcp sessionId seq payload))

end Fproxy.Server
