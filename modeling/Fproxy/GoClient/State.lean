import Fproxy.Client.State
import Fproxy.DedupWindow.Go
import Fproxy.GoFrameWriter

/-!
# The Go client: shared state and lock-protected sections

`client.go` keeps the same three tables as the Rust client, each under a mutex: `udpSessions`,
`udpSessionAddrs` and `tcpSessions`.  A session object can be held by a goroutine after it has left
its table, so the objects live in a heap.  Each definition below is one section.

A source stands for its key `sourceAddr.String()`, and a pair of a source and a server for the key
`sourceKey + "->" + serverAddr`.

* `createUdpSession`, `createTcpSession` — the write-locked halves of `getOrCreateUDPSession` and
  `getOrCreateTCPSession`.
* `findSession` — the loop over `udpSessions` for a session with an id, in whatever order the map
  is iterated.
* `expireUdp`, `expireTcp` — one turn of the two loops of `cleanupExpiredSessions`.
-/

namespace Fproxy.GoClient

open Fproxy.Config Fproxy.GoFrameWriter Fproxy.GoProtocol Fproxy.TcpFraming
open Fproxy.Client (SessionObj SenderId SessionKey allocateSessionId defaultResponseDedupSize)

/-- `config.ClientConfig`, as far as the running client reads it. -/
structure ClientConfig where
  servers : List Endpoint
  sessionTimeout : ℕ

/-- `UDPSession`. -/
structure UDPSession where
  sessionId : UInt64
  seq : UInt32
  lastActivity : ℕ
  responseDedup : GoDedupWindow

/-- `TCPSession`, named by its connection: whether `cancel` was called, and whether `conn` was
closed. -/
structure TCPSession where
  lastActivity : ℕ
  closed : Bool
  cancelled : Bool
  connClosed : Bool
  deriving DecidableEq

/-- `Client`: the tables and the heaps of session objects.  `sources` are the keys of `udpSessions`
and `keys` those of `tcpSessions`. -/
structure Client where
  cfg : ClientConfig
  sessionIdCounter : UInt64
  heap : SessionObj → UDPSession
  next : SessionObj
  sources : List SocketAddr
  udpSessions : SocketAddr → Option SessionObj
  udpSessionAddrs : UInt64 → Option SocketAddr
  tcpHeap : ConnId → TCPSession
  nextConn : ConnId
  keys : List SessionKey
  tcpSessions : SessionKey → Option ConnId

/-- A fresh session object. -/
def UDPSession.new (sessionId : UInt64) (seq : UInt32) (now : ℕ) : UDPSession where
  sessionId := sessionId
  seq := seq
  lastActivity := now
  responseDedup := .new (Int64.ofNat defaultResponseDedupSize)

/-- A fresh TCP session. -/
def TCPSession.new (now : ℕ) : TCPSession where
  lastActivity := now
  closed := false
  cancelled := false
  connClosed := false

/-- `New`, with the random start of the counter. -/
def new (cfg : ClientConfig) (counter : UInt64) : Client where
  cfg := cfg
  sessionIdCounter := counter
  heap := fun _ => UDPSession.new 0 0 0
  next := 0
  sources := []
  udpSessions := fun _ => none
  udpSessionAddrs := fun _ => none
  tcpHeap := fun _ => TCPSession.new 0
  nextConn := 0
  keys := []
  tcpSessions := fun _ => none

namespace Client

/-! ### Sections on the UDP sessions -/

/-- `randomUint32() % (1 << 31)`. -/
def initialSeq (random : UInt32) : UInt32 := random % 2147483648

/-- The write-locked half of `getOrCreateUDPSession`: look again, else allocate an id, store a
session and its reverse mapping.  Also tells whether the session is new. -/
def createUdpSession (s : Client) (source : SocketAddr) (random : UInt32) (now : ℕ) :
    Client × SessionObj × Bool :=
  match s.udpSessions source with
  | some o => (s, o, false)
  | none =>
      let sessionId := allocateSessionId s.sessionIdCounter
      ({ s with
          sessionIdCounter := sessionId
          heap := Function.update s.heap s.next (.new sessionId (initialSeq random) now)
          next := s.next + 1
          sources := s.sources ++ [source]
          udpSessions := Function.update s.udpSessions source (some s.next)
          udpSessionAddrs := Function.update s.udpSessionAddrs sessionId (some source) },
        s.next, true)

/-- `session.seq.Add(1) - 1`. -/
def takeSeq (s : Client) (o : SessionObj) : UInt32 × Client :=
  ((s.heap o).seq,
    { s with heap := Function.update s.heap o { s.heap o with seq := (s.heap o).seq + 1 } })

/-- `session.lastActivity = now`. -/
def touch (s : Client) (o : SessionObj) (now : ℕ) : Client :=
  { s with heap := Function.update s.heap o { s.heap o with lastActivity := now } }

/-- `session.responseDedup.IsDuplicate(seq)`. -/
def checkResponse (s : Client) (o : SessionObj) (seq : UInt32) : Bool × Client :=
  let r := (s.heap o).responseDedup.isDuplicate seq
  (r.1, { s with heap := Function.update s.heap o { s.heap o with responseDedup := r.2 } })

/-- The loop over `udpSessions` that looks for a session with an id; `order` is the order of the
iteration. -/
def findSession (s : Client) (sessionId : UInt64) : List SocketAddr → Option SessionObj
  | [] => none
  | source :: order =>
      match s.udpSessions source with
      | none => s.findSession sessionId order
      | some o => if (s.heap o).sessionId = sessionId then some o else s.findSession sessionId order

/-- `now.Sub(session.lastActivity) > timeout` for a UDP session. -/
def expired (s : Client) (now : ℕ) (o : SessionObj) : Bool :=
  s.cfg.sessionTimeout < now - (s.heap o).lastActivity

/-- One turn of the first loop of `cleanupExpiredSessions`. -/
def expireUdp (s : Client) (now : ℕ) (source : SocketAddr) : Client :=
  match s.udpSessions source with
  | none => s
  | some o =>
      if s.expired now o then
        { s with
          sources := s.sources.filter (· ≠ source)
          udpSessions := Function.update s.udpSessions source none
          udpSessionAddrs := Function.update s.udpSessionAddrs (s.heap o).sessionId none }
      else s

/-! ### Sections on the TCP sessions -/

/-- The write-locked half of `getOrCreateTCPSession`: look again, else dial (`connected` tells
whether that succeeded) and store a session. -/
def createTcpSession (s : Client) (key : SessionKey) (now : ℕ) (connected : Bool) :
    Client × Option (ConnId × Bool) :=
  match s.tcpSessions key with
  | some c => (s, some (c, false))
  | none =>
      if connected then
        ({ s with
            tcpHeap := Function.update s.tcpHeap s.nextConn (.new now)
            nextConn := s.nextConn + 1
            keys := s.keys ++ [key]
            tcpSessions := Function.update s.tcpSessions key (some s.nextConn) },
          some (s.nextConn, true))
      else (s, none)

/-- `session.lastActivity = now` for a TCP session. -/
def touchTcp (s : Client) (c : ConnId) (now : ℕ) : Client :=
  { s with tcpHeap := Function.update s.tcpHeap c { s.tcpHeap c with lastActivity := now } }

/-- The update of `lastActivity` in `handleTCPServerResponse`: of the session that is stored under
the key of the goroutine. -/
def touchStored (s : Client) (key : SessionKey) (now : ℕ) : Client :=
  match s.tcpSessions key with
  | none => s
  | some c => s.touchTcp c now

/-- `session.cancel()` and `session.conn.Close()`. -/
def closeTcp (s : Client) (c : ConnId) : Client :=
  { s with
    tcpHeap := Function.update s.tcpHeap c
      { s.tcpHeap c with cancelled := true, connClosed := true } }

/-- The locked half of `cleanupTCPSession`: delete whatever session is stored under the key. -/
def removeTcp (s : Client) (key : SessionKey) : Option ConnId × Client :=
  (s.tcpSessions key,
    { s with
      keys := s.keys.filter (· ≠ key)
      tcpSessions := Function.update s.tcpSessions key none })

/-- One turn of the second loop of `cleanupExpiredSessions`. -/
def expireTcp (s : Client) (now : ℕ) (key : SessionKey) : Client :=
  match s.tcpSessions key with
  | none => s
  | some c =>
      if s.cfg.sessionTimeout < now - (s.tcpHeap c).lastActivity then
        ((s.closeTcp c).removeTcp key).2
      else s

/-- The loop of `Stop` over `tcpSessions`. -/
def closeAllTcp (s : Client) : Client :=
  { s with
    tcpHeap := fun c =>
      if s.keys.any fun key => s.tcpSessions key = some c then
        { s.tcpHeap c with cancelled := true, connClosed := true }
      else s.tcpHeap c }

/-! ### What is sent -/

/-- `protocol.EncodeUDP(session.sessionID, seq, payload)`. -/
def udpPacket (s : Client) (o : SessionObj) (seq : UInt32) (payload : List UInt8) : List UInt8 :=
  encodeUDP (s.heap o).sessionId seq payload

/-- The frame that `sendTCPFrame` writes, unless it refuses to. -/
def tcpFrameFor (s : Client) (c : ConnId) (o : SessionObj) (seq : UInt32) (payload : List UInt8) :
    Except SendResult (List UInt8) :=
  let data := encodeTCP (s.heap o).sessionId seq payload
  if maxTcpFrameSize < data.length then .error .frameTooLarge
  else if (s.tcpHeap c).closed then .error .closedPipe
  else .ok (makeFrame data)

end Client

end Fproxy.GoClient
