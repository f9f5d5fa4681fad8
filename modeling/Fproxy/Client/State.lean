import Fproxy.Config
import Fproxy.Server.State

/-!
# The client: shared state and lock-protected sections

`client.rs` keeps three tables behind locks: the UDP session of each source, the source of each
session id, and the TCP session of each pair of a source and a server.  As for the server, each
section below is one atomic action on the `Client`, and session objects live in a heap because a
task can hold one that has left its table.

The state is the one `start` leaves behind: one UDP sender for each UDP endpoint, in order, and
the listener in place.
-/

namespace Fproxy.Client

open Fproxy.Config Fproxy.Protocol Fproxy.TcpFraming

/-- A `UdpSession` object. -/
abbrev SessionObj := ℕ

/-- An entry of `udp_senders`. -/
abbrev SenderId := ℕ

/-- `ClientConfig`. -/
structure ClientConfig where
  servers : List Endpoint
  sessionTimeout : ℕ

/-- `DEFAULT_RESPONSE_DEDUP_SIZE`. -/
def defaultResponseDedupSize : ℕ := 1000

/-- `UdpSession`. -/
structure UdpSession where
  sessionId : UInt64
  seq : UInt32
  lastActivity : ℕ
  responseDedup : ResponseDedupWindow

/-- `TcpSession`, named by the connection its writer belongs to. -/
structure TcpSession where
  lastActivity : ℕ
  cancelled : Bool
  deriving DecidableEq

/-- `format!("{}->{}", source_addr, endpoint.address)`.  The text of a socket address contains no
`>`, so the key determines the pair. -/
abbrev SessionKey := SocketAddr × String

/-- Where `handle_tcp_server_response` of a connection stands. -/
inductive ReaderPc where
  | idle
  | readLength
  | readBody
  /-- The loop has broken off; `cleanup_tcp_session` is next. -/
  | ended
  | done
  deriving DecidableEq

/-- The response task of a connection: `source_addr`, `session_key`, and where it stands. -/
structure Reader where
  source : SocketAddr
  key : SessionKey
  pc : ReaderPc
  deriving DecidableEq

end Fproxy.Client

namespace Fproxy

open Fproxy.Client

/-- `Client`: the tables, the heaps of session objects and the response tasks of its
connections.  `sources` are the keys of `udp_sessions` and `keys` those of `tcp_sessions`. -/
structure Client where
  cfg : ClientConfig
  sessionIdCounter : UInt64
  heap : SessionObj → UdpSession
  next : SessionObj
  sources : List SocketAddr
  udpSessions : SocketAddr → Option SessionObj
  udpSessionAddrs : UInt64 → Option SocketAddr
  tcpHeap : ConnId → TcpSession
  nextConn : ConnId
  keys : List SessionKey
  tcpSessions : SessionKey → Option ConnId
  readers : ConnId → Reader

end Fproxy

namespace Fproxy.Client

open Fproxy.Config Fproxy.Protocol Fproxy.TcpFraming

/-- A fresh session object. -/
def UdpSession.new (sessionId : UInt64) (initialSeq : UInt32) (now : ℕ) : UdpSession where
  sessionId := sessionId
  seq := initialSeq
  lastActivity := now
  responseDedup := .new defaultResponseDedupSize

/-- `Client::new`, with the random start of the counter. -/
def new (cfg : ClientConfig) (counter : UInt64) : Client where
  cfg := cfg
  sessionIdCounter := counter
  heap := fun _ => UdpSession.new 0 0 0
  next := 0
  sources := []
  udpSessions := fun _ => none
  udpSessionAddrs := fun _ => none
  tcpHeap := fun _ => ⟨0, false⟩
  nextConn := 0
  keys := []
  tcpSessions := fun _ => none
  readers := fun _ => ⟨⟨.v4 0, 0⟩, (⟨.v4 0, 0⟩, ""), .idle⟩

/-- What the client takes in from the sources and does to the outside, and what its windows
decide. -/
inductive Obs where
  /-- A datagram was read from the listener. -/
  | received (source : SocketAddr) (payload : List UInt8)
  /-- `get_or_create_udp_session` created an object with this id for a source. -/
  | created (o : SessionObj) (sessionId : UInt64) (source : SocketAddr)
  /-- `handle_packet` took the next number of an object for a datagram. -/
  | numbered (o : SessionObj) (seq : UInt32) (payload : List UInt8)
  /-- A connection was opened for a source. -/
  | connected (conn : ConnId) (source : SocketAddr) (server : String)
  /-- A packet left through a UDP sender. -/
  | sentUdp (sender : SenderId) (data : List UInt8)
  /-- A frame was written to a TCP connection. -/
  | sentTcp (conn : ConnId) (frame : List UInt8)
  /-- `is_duplicate` was called on the response window of an object. -/
  | checked (o : SessionObj) (seq : UInt32) (dup : Bool)
  /-- `listener.send_to` was called for a response accounted to an object, and whether it
  succeeded. -/
  | forwarded (o : SessionObj) (seq : UInt32) (source : SocketAddr) (payload : List UInt8)
      (ok : Bool)
  deriving DecidableEq

/-! ### Sections of `get_or_create_udp_session` -/

/-- The two `fetch_add`s on `session_id_counter`: the id, which is also the counter afterwards. -/
def allocateSessionId (counter : UInt64) : UInt64 :=
  if counter + 1 = 0 then counter + 1 + 1 else counter + 1

/-- `rand::random::<u32>() % (u32::MAX / 2)`. -/
def initialSeq (random : UInt32) : UInt32 := random % (4294967295 / 2)

/-- The write-locked section: look again, else allocate an id, store a fresh session and its
reverse mapping.  Also tells whether the session is new. -/
def createUdpSession (s : Client) (source : SocketAddr) (random : UInt32) (now : ℕ) :
    Client × SessionObj × Bool :=
  match s.udpSessions source with
  | some o => (s, o, false)
  | none =>
      let sessionId := allocateSessionId s.sessionIdCounter
      ({ s with
          sessionIdCounter := sessionId
          heap := Function.update s.heap s.next (.new sessionId (initialSeq random) now)
          next := s.next + 1
          sources := s.sources ++ [source]
          udpSessions := Function.update s.udpSessions source (some s.next)
          udpSessionAddrs := Function.update s.udpSessionAddrs sessionId (some source) },
        s.next, true)

/-! ### Sections on a UDP session object -/

/-- `session.seq.fetch_add(1)`. -/
def takeSeq (s : Client) (o : SessionObj) : UInt32 × Client :=
  ((s.heap o).seq,
    { s with heap := Function.update s.heap o { s.heap o with seq := (s.heap o).seq + 1 } })

/-- `*session.last_activity.write().await = now`. -/
def touch (s : Client) (o : SessionObj) (now : ℕ) : Client :=
  { s with heap := Function.update s.heap o { s.heap o with lastActivity := now } }

/-- `session.response_dedup.write().await.is_duplicate(seq)`. -/
def checkResponse (s : Client) (o : SessionObj) (seq : UInt32) : Bool × Client :=
  let r := (s.heap o).responseDedup.isDuplicate seq
  (r.1, { s with heap := Function.update s.heap o { s.heap o with responseDedup := r.2 } })

@[simp] theorem takeSeq_sessionId (s : Client) (o o' : SessionObj) :
    ((s.takeSeq o).2.heap o').sessionId = (s.heap o').sessionId := by
  by_cases h : o' = o <;> simp [takeSeq, h]

@[simp] theorem takeSeq_responseDedup (s : Client) (o o' : SessionObj) :
    ((s.takeSeq o).2.heap o').responseDedup = (s.heap o').responseDedup := by
  by_cases h : o' = o <;> simp [takeSeq, h]

theorem takeSeq_seq (s : Client) (o o' : SessionObj) :
    ((s.takeSeq o).2.heap o').seq = if o' = o then (s.heap o).seq + 1 else (s.heap o').seq := by
  by_cases h : o' = o <;> simp [takeSeq, h]

@[simp] theorem touch_seq (s : Client) (o o' : SessionObj) (now : ℕ) :
    ((s.touch o now).heap o').seq = (s.heap o').seq := by
  by_cases h : o' = o <;> simp [touch, h]

@[simp] theorem checkResponse_seq (s : Client) (o o' : SessionObj) (seq : UInt32) :
    ((s.checkResponse o seq).2.heap o').seq = (s.heap o').seq := by
  by_cases h : o' = o <;> simp [checkResponse, h]

@[simp] theorem touch_sessionId (s : Client) (o o' : SessionObj) (now : ℕ) :
    ((s.touch o now).heap o').sessionId = (s.heap o').sessionId := by
  by_cases h : o' = o <;> simp [touch, h]

@[simp] theorem touch_responseDedup (s : Client) (o o' : SessionObj) (now : ℕ) :
    ((s.touch o now).heap o').responseDedup = (s.heap o').responseDedup := by
  by_cases h : o' = o <;> simp [touch, h]

@[simp] theorem checkResponse_sessionId (s : Client) (o o' : SessionObj) (seq : UInt32) :
    ((s.checkResponse o seq).2.heap o').sessionId = (s.heap o').sessionId := by
  by_cases h : o' = o <;> simp [checkResponse, h]

theorem checkResponse_responseDedup (s : Client) (o o' : SessionObj) (seq : UInt32) :
    ((s.checkResponse o seq).2.heap o').responseDedup =
      if o' = o then ((s.heap o).responseDedup.isDuplicate seq).2
      else (s.heap o').responseDedup := by
  by_cases h : o' = o <;> simp [checkResponse, h]

/-! ### Sections on TCP sessions -/

/-- The write-locked section of `get_or_create_tcp_session`: look again, else connect
(`connected` tells whether that succeeded), store the session and spawn its response task. -/
def createTcpSession (s : Client) (source : SocketAddr) (server : String) (now : ℕ)
    (connected : Bool) : Client × Option (ConnId × Bool) :=
  match s.tcpSessions (source, server) with
  | some c => (s, some (c, false))
  | none =>
      if connected then
        ({ s with
            tcpHeap := Function.update s.tcpHeap s.nextConn ⟨now, false⟩
            nextConn := s.nextConn + 1
            keys := s.keys ++ [(source, server)]
            tcpSessions := Function.update s.tcpSessions (source, server) (some s.nextConn)
            readers :=
              Function.update s.readers s.nextConn ⟨source, (source, server), .readLength⟩ },
          some (s.nextConn, true))
      else (s, none)

/-- `*session.last_activity.write().await = Instant::now()` for a TCP session. -/
def touchTcp (s : Client) (c : ConnId) (now : ℕ) : Client :=
  { s with tcpHeap := Function.update s.tcpHeap c { s.tcpHeap c with lastActivity := now } }

/-- `session.cancel_token.cancel()`. -/
def cancelTcp (s : Client) (c : ConnId) : Client :=
  { s with tcpHeap := Function.update s.tcpHeap c { s.tcpHeap c with cancelled := true } }

/-- `cleanup_tcp_session`: remove and cancel whatever session is stored under the key. -/
def cleanupTcpSession (s : Client) (key : SessionKey) : Client :=
  match s.tcpSessions key with
  | none => s
  | some c =>
      { s.cancelTcp c with
        keys := s.keys.filter (· ≠ key)
        tcpSessions := Function.update s.tcpSessions key none }

/-- The clean-up of a TCP session touches the TCP sessions only. -/
theorem cleanupTcpSession_eq (s : Client) (key : SessionKey) :
    s.cleanupTcpSession key =
      { s with
        tcpHeap := (s.cleanupTcpSession key).tcpHeap
        keys := (s.cleanupTcpSession key).keys
        tcpSessions := (s.cleanupTcpSession key).tcpSessions } := by
  unfold cleanupTcpSession
  split <;> rfl

@[simp] theorem cleanupTcpSession_heap (s : Client) (key : SessionKey) :
    (s.cleanupTcpSession key).heap = s.heap := by rw [cleanupTcpSession_eq]

@[simp] theorem cleanupTcpSession_next (s : Client) (key : SessionKey) :
    (s.cleanupTcpSession key).next = s.next := by rw [cleanupTcpSession_eq]

@[simp] theorem cleanupTcpSession_udpSessions (s : Client) (key : SessionKey) :
    (s.cleanupTcpSession key).udpSessions = s.udpSessions := by rw [cleanupTcpSession_eq]

@[simp] theorem cleanupTcpSession_udpSessionAddrs (s : Client) (key : SessionKey) :
    (s.cleanupTcpSession key).udpSessionAddrs = s.udpSessionAddrs := by
  rw [cleanupTcpSession_eq]

@[simp] theorem cleanupTcpSession_readers (s : Client) (key : SessionKey) :
    (s.cleanupTcpSession key).readers = s.readers := by rw [cleanupTcpSession_eq]

@[simp] theorem cleanupTcpSession_nextConn (s : Client) (key : SessionKey) :
    (s.cleanupTcpSession key).nextConn = s.nextConn := by rw [cleanupTcpSession_eq]

@[simp] theorem cleanupTcpSession_sessionIdCounter (s : Client) (key : SessionKey) :
    (s.cleanupTcpSession key).sessionIdCounter = s.sessionIdCounter := by
  rw [cleanupTcpSession_eq]

theorem tcpSessions_of_cleanupTcpSession {s : Client} {key key' : SessionKey} {c : ConnId}
    (h : (s.cleanupTcpSession key).tcpSessions key' = some c) :
    s.tcpSessions key' = some c := by
  unfold cleanupTcpSession at h
  split at h
  · exact h
  · have h : Function.update s.tcpSessions key none key' = some c := h
    by_cases he : key' = key
    · rw [he, Function.update_self] at h
      exact absurd h (by simp)
    · rwa [Function.update_of_ne he] at h

/-- Set where the response task of a connection stands. -/
def setReader (s : Client) (c : ConnId) (pc : ReaderPc) : Client :=
  { s with readers := Function.update s.readers c { s.readers c with pc := pc } }

/-! ### The expiry sweep -/

/-- `now.duration_since(last_activity) > timeout` for the UDP session of a source. -/
def expired (s : Client) (now : ℕ) (source : SocketAddr) : Bool :=
  match s.udpSessions source with
  | none => false
  | some o => s.cfg.sessionTimeout < now - (s.heap o).lastActivity

/-- The id of the UDP session of a source. -/
def sessionIdOf (s : Client) (source : SocketAddr) : Option UInt64 :=
  (s.udpSessions source).map fun o => (s.heap o).sessionId

/-- The first half of `cleanup_expired_sessions`, under the write lock of `udp_sessions`. -/
def cleanupExpiredUdp (s : Client) (now : ℕ) : Client :=
  let expired := s.sources.filter (s.expired now)
  { s with
    sources := s.sources.filter (· ∉ expired)
    udpSessions := fun source => if source ∈ expired then none else s.udpSessions source
    udpSessionAddrs := fun sessionId =>
      if sessionId ∈ expired.filterMap s.sessionIdOf then none else s.udpSessionAddrs sessionId }

theorem udpSessions_of_cleanupExpiredUdp {s : Client} {now : ℕ} {source : SocketAddr}
    {o : SessionObj} (h : (s.cleanupExpiredUdp now).udpSessions source = some o) :
    s.udpSessions source = some o := by
  simp only [cleanupExpiredUdp] at h
  split at h
  · exact absurd h (by simp)
  · exact h

theorem udpSessionAddrs_of_cleanupExpiredUdp {s : Client} {now : ℕ} {sid : UInt64}
    {source : SocketAddr} (h : (s.cleanupExpiredUdp now).udpSessionAddrs sid = some source) :
    s.udpSessionAddrs sid = some source := by
  simp only [cleanupExpiredUdp] at h
  split at h
  · exact absurd h (by simp)
  · exact h

/-- `now.duration_since(last_activity) > timeout` for the TCP session of a key. -/
def expiredTcp (s : Client) (now : ℕ) (key : SessionKey) : Bool :=
  match s.tcpSessions key with
  | none => false
  | some c => s.cfg.sessionTimeout < now - (s.tcpHeap c).lastActivity

/-- The second half of `cleanup_expired_sessions`, under the write lock of `tcp_sessions`. -/
def cleanupExpiredTcp (s : Client) (now : ℕ) : Client :=
  let expired := s.keys.filter (s.expiredTcp now)
  { s with
    keys := s.keys.filter (· ∉ expired)
    tcpSessions := fun key => if key ∈ expired then none else s.tcpSessions key
    tcpHeap := fun c =>
      if some c ∈ expired.map s.tcpSessions then { s.tcpHeap c with cancelled := true }
      else s.tcpHeap c }

theorem tcpSessions_of_cleanupExpiredTcp {s : Client} {now : ℕ} {key : SessionKey} {c : ConnId}
    (h : (s.cleanupExpiredTcp now).tcpSessions key = some c) : s.tcpSessions key = some c := by
  simp only [cleanupExpiredTcp] at h
  split at h
  · exact absurd h (by simp)
  · exact h

/-! ### What leaves the client -/

/-- `handle_udp_transport`: the packet for every UDP sender. -/
def udpPacket (s : Client) (o : SessionObj) (seq : UInt32) (payload : List UInt8) : List UInt8 :=
  encodeUdp (s.heap o).sessionId seq payload

/-- `handle_tcp_transport`: the bytes `send_tcp_frame` writes for a session, if it accepts the
packet. -/
def tcpFrameFor (s : Client) (o : SessionObj) (seq : UInt32) (payload : List UInt8) :
    Except SendError (List UInt8) :=
  sendTcpFrame (encodeTcp (s.heap o).sessionId seq payload)

end Fproxy.Client
