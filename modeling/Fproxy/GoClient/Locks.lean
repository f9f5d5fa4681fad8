import Fproxy.GoClient.Machine
import Fproxy.Library.Locks

/-!
# The locks of the Go client

`client.go` has a lock for each of its tables and for the list of its senders, one in every TCP
session and one in every window.  A lock of a session table is held while the lock of the addresses
or of a TCP session is taken.  A sweep holds the lock of a table over a whole loop, and the loop of
`handleUDPTransport` that of the senders: the operations of such a loop stand where the sweep
enters it, and at the end of the other.

Calls are made under locks, and need not return: the client dials under `tcpSessionsMu`, and writes
under `mu` of the TCP session.  A sweep asks for that `mu` while it holds `tcpSessionsMu`, and `Stop`
asks for `tcpSessionsMu` before it closes the connection.  So a write to a server that does not read
holds up the sweep and `Stop` too, although it is the close that would end the write.

* `go_client_held_up_by_calls_alone` — whatever sections the goroutines go through, they wait for
  nothing but such calls in the end.
-/

namespace Fproxy.GoClient

open Fproxy.Locks Fproxy.Runs
open Fproxy.Config (addressesOf)
open Fproxy.Client (SessionObj SenderId Responder Sending)

/-- The locks of the client. -/
inductive Lock where
  | udpSendersMu
  | udpSessionsMu
  | udpSessionAddrsMu
  | tcpSessionsMu
  /-- `mu` of a TCP session. -/
  | session (c : ConnId)
  /-- `mu` of the window of a UDP session. -/
  | responseDedup (o : SessionObj)
  deriving DecidableEq

/-- Only the locks of the two session tables are held while another lock is asked for. -/
def Lock.rank : Lock → ℕ
  | .udpSessionsMu | .tcpSessionsMu => 0
  | _ => 1

/-- Who takes locks. -/
inductive Worker where
  /-- `handleListener`. -/
  | listener
  /-- `handleUDPServerResponse` or `handleTCPServerResponse`. -/
  | responder (t : Responder)
  /-- `sessionCleanupLoop`. -/
  | sweeper
  /-- The caller of `Stop`. -/
  | stop
  deriving DecidableEq

/-- Who makes a move. -/
def Event.worker : Event → Worker
  | .listenerSelect | .sourceSends _ _ | .listenerFails | .listener _ _ _ _ => .listener
  | .receiverSelect i | .datagram i _ | .receiverFails i _ => .responder (.udp i)
  | .readerSelect c | .lengthRead c _ | .bodyRead c _ | .readerFails c _ | .cleanup c =>
      .responder (.tcp c)
  | .responder t _ _ _ => .responder t
  | .tick _ | .sweepSource _ | .sweepKey _ | .sweepOn | .sweeperEnds => .sweeper
  | .stop => .stop

/-- What a section of `handlePacket` asks for. -/
def sendOps (cl : Client) (h : Sending) : List (Op Lock) :=
  match h.pc with
  | .lookup => locked .udpSessionsMu .shared []
  | .create =>
      locked .udpSessionsMu .exclusive
        (match cl.udpSessions h.source with
          | some _ => []
          | none => locked .udpSessionAddrsMu .exclusive [])
  | .number _ => []
  | .touch _ _ => locked .udpSessionsMu .exclusive []
  | .udp _ _ [] =>
      locked .udpSendersMu .shared
        (List.replicate (addressesOf .udp cl.cfg.servers).length .call)
  | .udp _ _ (_ :: _) => []
  | .tcp _ _ [] => []
  | .tcp _ _ (_ :: _) => locked .tcpSessionsMu .shared []
  | .tcpCreate _ _ server _ =>
      locked .tcpSessionsMu .exclusive
        (match cl.tcpSessions (h.source, server) with
          | some _ => []
          | none => [.call])
  | .tcpTouch _ _ c _ => locked (.session c) .exclusive []
  | .tcpSend o seq c _ =>
      match cl.tcpFrameFor c o seq h.payload with
      | .ok _ => locked (.session c) .exclusive [.call]
      -- a packet that is too large is refused before the lock is taken
      | .error .frameTooLarge => []
      | .error _ => locked (.session c) .exclusive []

/-- What a section of the handling of a response asks for. -/
def responseOps (s : State) (t : Responder) (r : Response) : List (Op Lock) :=
  match r.pc with
  | .lookupAddr => locked .udpSessionAddrsMu .shared []
  | .findSession _ => locked .udpSessionsMu .shared []
  | .check _ o => locked (.responseDedup o) .exclusive []
  | .touch _ _ => locked .udpSessionsMu .exclusive []
  | .touchTcp _ _ =>
      match t with
      | .udp _ => []
      | .tcp c =>
          locked .tcpSessionsMu .shared
            (match s.cl.tcpSessions (s.readers c).key with
              | some c' => locked (.session c') .exclusive []
              | none => [])
  | .forward _ _ => [.call]

/-- What the first loop of `cleanupExpiredSessions` asks for: the addresses once for every session
that has expired. -/
def sweepUdpOps (cl : Client) (now : ℕ) : List (Op Lock) :=
  locked .udpSessionsMu .exclusive
    (((cl.sources.filterMap cl.udpSessions).filter (cl.expired now)).flatMap fun _ =>
      locked .udpSessionAddrsMu .exclusive [])

/-- What its second loop asks for: the lock of every TCP session. -/
def sweepTcpOps (cl : Client) : List (Op Lock) :=
  locked .tcpSessionsMu .exclusive
    ((cl.keys.filterMap cl.tcpSessions).flatMap fun c => locked (.session c) .exclusive [])

/-- What a step of `Stop` asks for. -/
def stopOps : StopPc → List (Op Lock)
  | .senders => locked .udpSendersMu .exclusive []
  | .sessions => locked .tcpSessionsMu .exclusive []
  | _ => []

/-- What the section of an event asks for. -/
def lockOps (s : State) : Event → List (Op Lock)
  | .listener _ _ _ _ =>
      match s.sending with
      | some h => sendOps s.cl h
      | none => []
  | .responder t _ _ _ =>
      match s.responses t with
      | some r => responseOps s t r
      | none => []
  | .cleanup c =>
      match (s.readers c).pc with
      | .cleanup => locked .tcpSessionsMu .exclusive []
      | _ => []
  | .tick now => sweepUdpOps s.cl now
  | .sweepOn =>
      match s.sweep with
      | .between _ => sweepTcpOps s.cl
      | _ => []
  | .stop => stopOps s.stop
  | _ => []

theorem sendOps_balanced (cl : Client) (h : Sending) : Balanced Lock.rank 0 (sendOps cl h) := by
  unfold sendOps
  cases h.pc with
  | lookup | touch _ _ | tcpTouch _ _ _ _ => exact .single
  | create =>
      refine .locked (Nat.zero_le _) ?_
      split
      · exact .nil
      · exact .short (Nat.le_refl 1)
  | number _ => exact .nil
  | udp o seq senders =>
      cases senders with
      | nil => exact .locked (Nat.zero_le _) (.calls _)
      | cons i senders => exact .nil
  | tcp o seq servers =>
      cases servers with
      | nil => exact .nil
      | cons server servers => exact .single
  | tcpCreate o seq server servers =>
      refine .locked (Nat.zero_le _) ?_
      split
      · exact .nil
      · exact .call
  | tcpSend o seq c servers =>
      dsimp only
      split
      · exact .locked (Nat.zero_le _) .call
      · exact .nil
      · exact .single

theorem responseOps_balanced (s : State) (t : Responder) (r : Response) :
    Balanced Lock.rank 0 (responseOps s t r) := by
  unfold responseOps
  cases r.pc with
  | touchTcp source o =>
      cases t with
      | udp i => exact .nil
      | tcp c =>
          refine .locked (Nat.zero_le _) ?_
          split
          · exact .short (Nat.le_refl 1)
          · exact .nil
  | forward source o => exact .call
  | _ => exact .single

theorem sweepUdpOps_balanced (cl : Client) (now : ℕ) :
    Balanced Lock.rank 0 (sweepUdpOps cl now) :=
  .locked (Nat.zero_le _) (.flatMap fun _ _ => .short (Nat.le_refl 1))

theorem sweepTcpOps_balanced (cl : Client) : Balanced Lock.rank 0 (sweepTcpOps cl) :=
  .locked (Nat.zero_le _) (.flatMap fun _ _ => .short (Nat.le_refl 1))

theorem stopOps_balanced (pc : StopPc) : Balanced Lock.rank 0 (stopOps pc) := by
  unfold stopOps
  split
  · exact .single
  · exact .single
  · exact .nil

/-- Every section takes its locks in order. -/
theorem lockOps_balanced (s : State) (e : Event) : Balanced Lock.rank 0 (lockOps s e) := by
  cases e with
  | listener now random connected sendOk =>
      rw [lockOps]
      split
      · exact sendOps_balanced _ _
      · exact .nil
  | responder t now order sendOk =>
      rw [lockOps]
      split
      · exact responseOps_balanced _ _ _
      · exact .nil
  | cleanup c =>
      rw [lockOps]
      split
      · exact .single
      · exact .nil
  | tick now => exact sweepUdpOps_balanced s.cl now
  | sweepOn =>
      rw [lockOps]
      split
      · exact sweepTcpOps_balanced s.cl
      · exact .nil
  | stop => exact stopOps_balanced s.stop
  | _ => exact .nil

theorem Lock.rank_lt (l : Lock) : l.rank < 2 := by
  cases l <;> simp [Lock.rank]

/-- **The Go client is held up by calls alone.**  Let its goroutines and `Stop` go through the
sections of any run, ask for the locks in any order, and let the locks be given to whoever waits, as
long as a free lock is given to someone: nobody waits for ever but for a call that does not return,
and if the calls return, everybody comes to the end of its sections. -/
theorem go_client_held_up_by_calls_alone (cfg : ClientConfig) (counter : UInt64)
    {admits : Admits Worker Lock} (hlive : Live admits) (es : List Event) :
    HeldUpByCalls (es.map Event.worker)
      (lockMachine (machine cfg counter) Event.worker lockOps admits es) :=
  sections_heldUpByCalls (machine cfg counter) lockOps_balanced hlive Lock.rank_lt es

/-- A datagram goes out over a new connection, a sweep begins, and the client is stopped. -/
def writeWhileStopped : List Event :=
  sendDatagram demoAddr 0 11 ++
    [Event.tick 2, Event.sweepSource demoAddr, Event.sweepOn, Event.sweepOn] ++
    List.replicate 4 Event.stop

/-- A schedule up to the write of the listener, which the sweep waits for and `Stop` for the
sweep. -/
def stopWaits : List (Locks.Event Worker) :=
  let lock (t : Worker) : List (Locks.Event Worker) := [.move t, .grant t]
  let visit (t : Worker) : List (Locks.Event Worker) := lock t ++ [.move t]
  let call (t : Worker) : List (Locks.Event Worker) := lock t ++ [.returns t, .move t]
  visit .listener ++ lock .listener ++ visit .listener ++ [Locks.Event.move .listener] ++
    visit .listener ++ call .listener ++ visit .listener ++ call .listener ++
    visit .listener ++ lock .listener ++
    visit .sweeper ++ lock .sweeper ++ [Locks.Event.move .sweeper] ++
    visit .stop ++ [Locks.Event.move .stop]

/-- `Stop` waits for the table, which the sweep holds; the sweep waits for the TCP session, which
the listener holds; and the listener waits for its write. -/
theorem go_client_held_up_by_calls_alone_stop_waits :
    ∃ s tr, (lockMachine (machine demoConfig 0) Event.worker lockOps fifo
        writeWhileStopped).exec stopWaits = some (s, tr) ∧
      (Blocks s .stop .sweeper ∧ Blocks s .sweeper .listener ∧ InCall s .listener) ∧
      (∃ u, Relation.ReflTransGen (Blocks s) .stop u ∧ (Free s u ∨ InCall s u)) ∧
      ∃ es' s' tr', (lockMachine (machine demoConfig 0) Event.worker lockOps fifo
        writeWhileStopped).execFrom s es' = some (s', tr') ∧ Finished s' := by
  have hview : ((lockMachine (machine demoConfig 0) Event.worker lockOps fifo
      writeWhileStopped).exec stopWaits).map (fun r =>
        [Worker.listener, .sweeper, .stop].map fun t =>
          ((r.1.tasks t).held, (r.1.tasks t).waiting, (r.1.tasks t).rest.head?)) =
      some [([(.session 0, .exclusive)], false, some .call),
        ([(.tcpSessionsMu, .exclusive)], true, some (.acquire (.session 0) .exclusive)),
        ([], true, some (.acquire .tcpSessionsMu .exclusive))] := by decide
  obtain ⟨⟨s, tr⟩, hrun, hv⟩ := Option.map_eq_some_iff.mp hview
  simp only [List.map_cons, List.map_nil, Prod.mk.injEq, List.cons.injEq, and_true] at hv
  obtain ⟨⟨hwrites, -, hcall⟩, ⟨hsweeps, hsweeper, hsession⟩, -, hstop, htable⟩ := hv
  obtain ⟨-, hchain, -, hfinish⟩ :=
    go_client_held_up_by_calls_alone demoConfig 0 live_fifo writeWhileStopped _ s tr hrun
  obtain ⟨ops, hops⟩ := List.head?_eq_some_iff.mp hcall
  obtain ⟨ops₁, hops₁⟩ := List.head?_eq_some_iff.mp hsession
  obtain ⟨ops₂, hops₂⟩ := List.head?_eq_some_iff.mp htable
  have hstops : Blocks s .stop .sweeper :=
    ⟨.tcpSessionsMu, ⟨hstop, _, _, hops₂⟩, .exclusive, by rw [hsweeps]; exact List.mem_cons_self⟩
  have hwaits : Blocks s .sweeper .listener :=
    ⟨.session 0, ⟨hsweeper, _, _, hops₁⟩, .exclusive, by rw [hwrites]; exact List.mem_cons_self⟩
  exact ⟨s, tr, hrun, ⟨hstops, hwaits, ops, hops⟩, hchain .stop (by rw [hops₂]; simp), hfinish⟩

end Fproxy.GoClient
