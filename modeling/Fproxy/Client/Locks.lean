import Fproxy.Client.Machine
import Fproxy.Library.Locks

/-!
# The locks of the client

`client.rs` guards its tables, the list of its senders and its listener by one lock each, every
session by one for its window and one for its timestamp, and every TCP session by one for its
timestamp and one for its write half.  The lock of `udp_senders` is held while the loop of
`handle_udp_transport` sends; nothing else is asked for in that loop, so its operations stand at
the end of it.

Calls are made under locks, and need not return: the client connects under the lock of
`tcp_sessions`, and writes frames under that of the write half, both without a timeout.  A server
that does not read holds up the listener, and one that does not answer the connect holds up the
sweep and the readers of other connections that have ended as well.

* `client_held_up_by_calls_alone` — whatever sections the tasks go through, they wait for nothing
  but such calls in the end.
-/

namespace Fproxy.Client

open Fproxy.Locks Fproxy.Runs
open Fproxy.Config (addressesOf)

/-- The locks of the client. -/
inductive Lock where
  | listener
  | udpSenders
  | udpSessions
  | udpSessionAddrs
  | tcpSessions
  | lastActivity (o : SessionObj)
  | responseDedup (o : SessionObj)
  | tcpActivity (c : ConnId)
  | writer (c : ConnId)
  deriving DecidableEq

/-- Only the locks of the two session tables are held while another lock is asked for. -/
def Lock.rank : Lock → ℕ
  | .udpSessions | .tcpSessions => 0
  | _ => 1

/-- The tasks that take locks. -/
inductive Worker where
  /-- `handle_listener`. -/
  | listener
  /-- `handle_udp_server_response` or `handle_tcp_server_response`. -/
  | responder (t : Responder)
  /-- `session_cleanup_loop`. -/
  | sweeper
  /-- The caller of `stop`. -/
  | other
  deriving DecidableEq

/-- The task that an event moves. -/
def Event.worker : Event → Worker
  | .sourceSends _ _ | .listener _ _ _ _ => .listener
  | .udpArrives i _ => .responder (.udp i)
  | .frameBegins c | .frameEnds c _ | .readerFails c | .readerCancelled c | .cleanup c =>
      .responder (.tcp c)
  | .responder t _ _ => .responder t
  | .sweepUdp _ | .sweepTcp => .sweeper
  | .stop => .other

/-- What a section of `handle_packet` asks for. -/
def sendOps (cl : Client) (h : Sending) : List (Op Lock) :=
  match h.pc with
  | .lookup => locked .udpSessions .shared []
  | .create =>
      locked .udpSessions .exclusive
        (match cl.udpSessions h.source with
          | some _ => []
          | none => locked .udpSessionAddrs .exclusive [])
  | .number _ => []
  | .touch o _ => locked (.lastActivity o) .exclusive []
  | .udp _ _ [] =>
      locked .udpSenders .shared
        (List.replicate (addressesOf .udp cl.cfg.servers).length .call)
  | .udp _ _ (_ :: _) => []
  | .tcp _ _ [] => []
  | .tcp _ _ (_ :: _) => locked .tcpSessions .shared []
  | .tcpCreate _ _ server _ =>
      locked .tcpSessions .exclusive
        (match cl.tcpSessions (h.source, server) with
          | some _ => []
          | none => [.call])
  | .tcpTouch _ _ c _ => locked (.tcpActivity c) .exclusive []
  | .tcpSend o seq c _ =>
      match cl.tcpFrameFor o seq h.payload with
      | .ok _ => locked (.writer c) .exclusive [.call]
      | .error _ => []

/-- What a section of `process_udp_response` or `process_tcp_response` asks for. -/
def responseOps (r : Response) : List (Op Lock) :=
  match r.pc with
  | .lookupAddr => locked .udpSessionAddrs .shared []
  | .lookupSession _ => locked .udpSessions .shared []
  | .check _ o => locked (.responseDedup o) .exclusive []
  | .touch _ o => locked (.lastActivity o) .exclusive []
  | .forward _ _ => locked .listener .shared [.call]

/-- What the first half of `cleanup_expired_sessions` asks for: under the lock of the table, the
timestamp of every session, and the reverse mapping once for every session that has expired. -/
def sweepUdpOps (cl : Client) (now : ℕ) : List (Op Lock) :=
  locked .udpSessions .exclusive
    (((cl.sources.filterMap cl.udpSessions).flatMap fun o => locked (.lastActivity o) .shared []) ++
      (cl.sources.filter (cl.expired now)).flatMap fun _ =>
        locked .udpSessionAddrs .exclusive [])

/-- What its second half asks for. -/
def sweepTcpOps (cl : Client) : List (Op Lock) :=
  locked .tcpSessions .exclusive
    ((cl.keys.filterMap cl.tcpSessions).flatMap fun c => locked (.tcpActivity c) .shared [])

/-- What the section of an event asks for. -/
def lockOps (s : State) : Event → List (Op Lock)
  | .listener _ _ _ _ =>
      match s.sending with
      | some h => sendOps s.cl h
      | none => []
  | .responder t _ _ =>
      match s.responses t with
      | some r => responseOps r
      | none => []
  | .cleanup _ => locked .tcpSessions .exclusive []
  | .sweepUdp now => sweepUdpOps s.cl now
  | .sweepTcp => sweepTcpOps s.cl
  | _ => []

theorem sendOps_balanced (cl : Client) (h : Sending) : Balanced Lock.rank 0 (sendOps cl h) := by
  unfold sendOps
  cases h.pc with
  | lookup | touch _ _ | tcpTouch _ _ _ _ => exact .single
  | create =>
      refine .locked (Nat.zero_le _) ?_
      split
      · exact .nil
      · exact .short (Nat.le_refl 1)
  | number _ => exact .nil
  | udp o seq senders =>
      cases senders with
      | nil => exact .locked (Nat.zero_le _) (.calls _)
      | cons i senders => exact .nil
  | tcp o seq servers =>
      cases servers with
      | nil => exact .nil
      | cons server servers => exact .single
  | tcpCreate o seq server servers =>
      refine .locked (Nat.zero_le _) ?_
      split
      · exact .nil
      · exact .call
  | tcpSend o seq c servers =>
      dsimp only
      split
      · exact .locked (Nat.zero_le _) .call
      · exact .nil

theorem responseOps_balanced (r : Response) : Balanced Lock.rank 0 (responseOps r) := by
  unfold responseOps
  cases r.pc with
  | forward o source => exact .locked (Nat.zero_le _) .call
  | _ => exact .single

theorem sweepUdpOps_balanced (cl : Client) (now : ℕ) :
    Balanced Lock.rank 0 (sweepUdpOps cl now) := by
  refine .locked (Nat.zero_le _) (.append ?_ ?_)
  · exact .flatMap fun o _ => .short (Nat.le_refl 1)
  · exact .flatMap fun source _ => .short (Nat.le_refl 1)

theorem sweepTcpOps_balanced (cl : Client) : Balanced Lock.rank 0 (sweepTcpOps cl) :=
  .locked (Nat.zero_le _) (.flatMap fun _ _ => .short (Nat.le_refl 1))

/-- Every section takes its locks in order. -/
theorem lockOps_balanced (s : State) (e : Event) : Balanced Lock.rank 0 (lockOps s e) := by
  cases e with
  | listener now random connected sendOk =>
      rw [lockOps]
      split
      · exact sendOps_balanced _ _
      · exact .nil
  | responder t now sendOk =>
      rw [lockOps]
      split
      · exact responseOps_balanced _
      · exact .nil
  | cleanup c => exact .single
  | sweepUdp now => exact sweepUdpOps_balanced s.cl now
  | sweepTcp => exact sweepTcpOps_balanced s.cl
  | _ => exact .nil

theorem Lock.rank_lt (l : Lock) : l.rank < 2 := by
  cases l <;> simp [Lock.rank]

/-- **The client is held up by calls alone.**  Let its tasks go through the sections of any run, ask
for the locks in any order, and let the locks be given to whoever waits, as long as a free lock is
given to someone: no task waits for ever but for a call that does not return, and if the calls
return, every task comes to the end of its sections. -/
theorem client_held_up_by_calls_alone (cfg : ClientConfig) (counter : UInt64)
    {admits : Admits Worker Lock} (hlive : Live admits) (es : List Event) :
    HeldUpByCalls (es.map Event.worker)
      (lockMachine (machine cfg counter) Event.worker lockOps admits es) :=
  sections_heldUpByCalls (machine cfg counter) lockOps_balanced hlive Lock.rank_lt es

/-- A datagram goes out over a new connection while a sweep begins. -/
def connectWhileSwept : List Event :=
  sendDatagram demoAddr 0 11 ++ [Event.sweepUdp 9, Event.sweepTcp]

/-- A schedule of its tasks up to the connect of the listener, which the sweep waits for. -/
def sweepWaits : List (Locks.Event Worker) :=
  let lock (t : Worker) : List (Locks.Event Worker) := [.move t, .grant t]
  let visit (t : Worker) : List (Locks.Event Worker) := lock t ++ [.move t]
  visit .listener ++ lock .listener ++ visit .listener ++ [Locks.Event.move .listener] ++
    visit .listener ++ lock .listener ++
    [Locks.Event.returns .listener, Locks.Event.move .listener] ++
    visit .listener ++ lock .listener ++
    lock .sweeper ++ visit .sweeper ++ [Locks.Event.move .sweeper, Locks.Event.move .sweeper]

/-- The sweep waits for the table of the connections, whose holder waits for its connect. -/
theorem client_held_up_by_calls_alone_sweep_waits :
    ∃ s tr, (lockMachine (machine demoConfig 0) Event.worker lockOps fifo connectWhileSwept).exec
        sweepWaits = some (s, tr) ∧
      s.Holds .listener .tcpSessions ∧ InCall s .listener ∧
      (s.tasks .sweeper).WaitsFor .tcpSessions ∧
      (∃ u, Relation.ReflTransGen (Blocks s) .sweeper u ∧ (Free s u ∨ InCall s u)) ∧
      ∃ es' s' tr', (lockMachine (machine demoConfig 0) Event.worker lockOps fifo
        connectWhileSwept).execFrom s es' = some (s', tr') ∧ Finished s' := by
  have hview : ((lockMachine (machine demoConfig 0) Event.worker lockOps fifo
      connectWhileSwept).exec sweepWaits).map (fun r =>
        ((r.1.tasks .listener).held, (r.1.tasks .listener).rest.head?,
          (r.1.tasks .sweeper).waiting, (r.1.tasks .sweeper).rest.head?)) =
      some ([(.tcpSessions, .exclusive)], some .call, true,
        some (.acquire .tcpSessions .exclusive)) := by decide
  obtain ⟨⟨s, tr⟩, hrun, hv⟩ := Option.map_eq_some_iff.mp hview
  obtain ⟨hheld, hcall, hwaiting, hask⟩ := by simpa only [Prod.mk.injEq] using hv
  obtain ⟨-, hchain, -, hfinish⟩ :=
    client_held_up_by_calls_alone demoConfig 0 live_fifo connectWhileSwept _ s tr hrun
  obtain ⟨ops, hops⟩ := List.head?_eq_some_iff.mp hcall
  obtain ⟨ops', hops'⟩ := List.head?_eq_some_iff.mp hask
  exact ⟨s, tr, hrun, ⟨.exclusive, by rw [hheld]; exact List.mem_cons_self⟩, ⟨ops, hops⟩,
    ⟨hwaiting, .exclusive, ops', hops'⟩, hchain _ (by rw [hops']; simp), hfinish⟩

end Fproxy.Client
