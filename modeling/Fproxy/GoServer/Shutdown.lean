import Fproxy.GoServer.Machine

/-!
# Which goroutines `Stop` releases

`Stop` cancels the context and closes the listeners and the target sockets, then waits until every
goroutine has returned.  The context is looked at between reads only, so a goroutine that is in a
read without a deadline returns only if the read fails, for which somebody has to close its socket.
No step of `Stop` closes an accepted connection.

* `Skeleton`, `Move` — the sockets and the goroutines, and the moves they make.
  `move_of_step` — the server refines them.
* `Inv` — the invariant: the sockets `Stop` has got to are closed, connections are closed by their
  own goroutine only, and nobody starts reading once the context is cancelled.
* `stop_releases_iff` — everybody is released exactly when no connection is being read at `wg.Wait`.
* `stop_hangs_on_connection` — one idle connection.
-/

namespace Fproxy.GoServer

open Fproxy.Runs
open Fproxy.Server (ListenerId ObjId)

/-! ### Who is waited for -/

/-- In a read. -/
def Pc.Reads : Pc → Prop
  | .read => True
  | .readData _ => True
  | _ => False

instance (pc : Pc) : Decidable pc.Reads := by
  cases pc <;> unfold Pc.Reads <;> infer_instance

/-- The socket a goroutine reads without a deadline. -/
def Goroutine.blocksOn : Goroutine → Option Socket
  | .udpListener l => some (.listener l)
  | .tcpListener l => some (.listener l)
  | .tcpConn c => some (.conn c)
  | .targetResponse _ => none
  | .sessionCleanup => none

/-- Every goroutine that `wg` counts and that is in a read without a deadline reads from a closed
socket. -/
def Released (s : State) : Prop :=
  ∀ g pc k, s.goroutines g = some pc → pc.Reads → g.blocksOn = some k → s.closed k = true

/-- No goroutine is in a read of an accepted connection. -/
def NoConnRead (goroutines : Goroutine → Option Pc) : Prop :=
  ∀ c pc, goroutines (.tcpConn c) = some pc → ¬ pc.Reads

/-! ### The skeleton of the server -/

/-- The sockets and the goroutines. -/
structure Skeleton where
  listeners : List Config.Protocol
  closed : Socket → Bool
  ctxDone : Bool
  nextConn : ConnId
  goroutines : Goroutine → Option Pc
  stop : StopPc

def State.skeleton (s : State) : Skeleton :=
  ⟨s.listeners, s.closed, s.ctxDone, s.nextConn, s.goroutines, s.stop⟩

namespace Skeleton

def setGoroutine (k : Skeleton) (g : Goroutine) (pc : Option Pc) : Skeleton :=
  { k with goroutines := Function.update k.goroutines g pc }

def close (k : Skeleton) (sock : Socket) : Skeleton :=
  { k with closed := Function.update k.closed sock true }

end Skeleton

/-- What a step does to the skeleton. -/
inductive Move (k : Skeleton) (e : Event) : Skeleton → Prop
  | listen {p : Config.Protocol} : k.stop = .running →
      Move k e ({ k with listeners := k.listeners ++ [p] }.setGoroutine
        (listenerGoroutine k.listeners.length p) (some .check))
  | startCleanup : Move k e (k.setGoroutine .sessionCleanup (some .check))
  /-- A goroutine moves on; into a read only from a read or while the context is alive. -/
  | goto {g : Goroutine} {pc pc' : Pc} : k.goroutines g = some pc →
      (pc'.Reads → pc.Reads ∨ k.ctxDone = false) → Move k e (k.setGoroutine g (some pc'))
  /-- A goroutine returns. -/
  | leave {g : Goroutine} : (∀ c, g ≠ .tcpConn c) → Move k e (k.setGoroutine g none)
  /-- `handleTCPConn` closes its connection and returns. -/
  | closeConn {c : ConnId} : k.goroutines (.tcpConn c) ≠ none →
      Move k e ((k.close (.conn c)).setGoroutine (.tcpConn c) none)
  | accept {g : Goroutine} {pc : Pc} : k.goroutines g = some pc → (∀ c, g ≠ .tcpConn c) →
      Move k e (({ k with nextConn := k.nextConn + 1 }.setGoroutine g (some .check)).setGoroutine
        (.tcpConn k.nextConn) (some .check))
  /-- A handler creates a session, and a goroutine for its target socket. -/
  | create {g : Goroutine} {pc pc' : Pc} {o : ObjId} : k.goroutines g = some pc → ¬ pc'.Reads →
      Move k e ((k.setGoroutine (.targetResponse o) (some .check)).setGoroutine g (some pc'))
  /-- The sweep, or a step of `Stop` that closes no listener and no connection. -/
  | closeTargets {closed : Socket → Bool} {stop : StopPc} :
      (∀ l, closed (.listener l) = k.closed (.listener l)) →
      (∀ c, closed (.conn c) = k.closed (.conn c)) →
      (stop = k.stop ∨ k.stop = .sessions ∧ stop = .paths ∨ k.stop = .paths ∧ stop = .conns ∨
        e = .stop ∧ k.stop = .conns ∧ stop = .waiting) →
      Move k e { k with closed := closed, stop := stop }
  | cancel : k.stop = .running → Move k e { k with ctxDone := true, stop := .listeners 0 }
  | closeListener {n : ℕ} : k.stop = .listeners n → n < k.listeners.length →
      Move k e { k.close (.listener n) with stop := .listeners (n + 1) }
  | listenersDone {n : ℕ} : k.stop = .listeners n → ¬ n < k.listeners.length →
      Move k e { k with stop := .sessions }

/-! ### The server refines its skeleton -/

section Refinement

variable {s s' : State} {e : Event}

/-- A goroutine moves on, to a place that is no read. -/
theorem move_goto {g : Goroutine} {pc pc' : Pc} (hg : s.goroutines g = some pc)
    (hpc : ¬ pc'.Reads) : Move s.skeleton e (s.setGoroutine g (some pc')).skeleton :=
  .goto hg fun h => absurd h hpc

theorem move_leave {g : Goroutine} {pc : Pc} (hg : s.goroutines g = some pc) :
    Move s.skeleton e (leave s g).skeleton := by
  cases g with
  | tcpConn c => exact move_goto hg id
  | _ => exact .leave (by simp)

theorem move_received {g : Goroutine} {pc : Pc} (hg : s.goroutines g = some pc)
    (path : ClientPath) (data : List UInt8) : Move s.skeleton e (received s g path data).skeleton := by
  unfold received
  split
  · exact move_goto hg id
  · exact move_goto hg id

theorem ctx_alive {g : Goroutine} (h : done s g = false) : s.ctxDone = false := by
  cases g with
  | targetResponse o => exact (Bool.or_eq_false_iff.mp h).2
  | _ => exact h

theorem reading_goroutine {g : Goroutine} {k : Socket} {pc : Pc} (h : reading s g k pc = true) :
    s.goroutines g = some pc := by
  simp only [reading, Bool.and_eq_true, decide_eq_true_eq] at h
  exact h.1

/-- What the handling of a packet does to the tables does not touch the skeleton. -/
theorem admitPacket_skeleton (s : State) (path : ClientPath) (sid : UInt64) (seq : UInt32)
    (o : ObjId) (now : ℕ) : (admitPacket s path sid seq o now).skeleton = s.skeleton := by
  unfold admitPacket
  dsimp only
  split
  · rfl
  · cases path <;> rfl

theorem cleanupTcpConn_skeleton (s : State) (c : ConnId) :
    (cleanupTcpConn s c).skeleton = s.skeleton.close (.conn c) := by
  unfold cleanupTcpConn
  split <;> rfl

theorem setGoroutine_skeleton (s : State) (g : Goroutine) (pc : Option Pc) :
    (s.setGoroutine g pc).skeleton = s.skeleton.setGoroutine g pc := rfl

/-- The loop over the sessions closes target sockets only. -/
theorem move_closeSessions (p : UInt64 → Bool) {stop : StopPc}
    (hstop : stop = s.stop ∨ s.stop = .sessions ∧ stop = .paths) :
    Move s.skeleton e { closeSessions s p with stop := stop }.skeleton := by
  refine .closeTargets (fun l => rfl) (fun c => rfl) ?_
  rcases hstop with h | h
  · exact Or.inl h
  · exact Or.inr (Or.inl h)

theorem move_of_stepSection {g : Goroutine} {now : ℕ} {connected : Bool}
    (h : stepSection s g now connected = some s') : Move s.skeleton e s'.skeleton := by
  unfold stepSection at h
  split at h
  · next hg =>
      split at h <;> obtain rfl := Option.some.inj h <;> exact move_goto hg id
  · next path sid seq hg =>
      unfold createSession at h
      cases hs : s.sessions sid with
      | some o =>
          simp only [hs] at h
          obtain rfl := Option.some.inj h
          exact move_goto hg id
      | none =>
          cases connected with
          | false =>
              simp only [hs] at h
              obtain rfl := Option.some.inj h
              exact move_goto hg id
          | true =>
              simp only [hs, if_true] at h
              obtain rfl := Option.some.inj h
              exact .create (o := s.nextTarget) hg id
  · next hg =>
      obtain rfl := Option.some.inj h
      rw [setGoroutine_skeleton, admitPacket_skeleton]
      exact move_goto hg id
  · next o hg =>
      split at h <;> obtain rfl := Option.some.inj h
      · exact .goto hg (fun h => absurd h id)
      · exact move_goto hg id
  · next c hg =>
      obtain rfl := Option.some.inj h
      rw [setGoroutine_skeleton, cleanupTcpConn_skeleton]
      exact .closeConn (by rw [show s.skeleton.goroutines = s.goroutines from rfl, hg]; simp)
  · exact absurd h (by simp)

theorem move_of_stepStop (h : stepStop s = some s') : Move s.skeleton .stop s'.skeleton := by
  unfold stepStop at h
  split at h
  · next hstop =>
      obtain rfl := Option.some.inj h
      exact .cancel hstop
  · next n hstop =>
      split at h <;> obtain rfl := Option.some.inj h
      · next hn => exact .closeListener hstop hn
      · next hn => exact .listenersDone hstop hn
  · next hstop =>
      obtain rfl := Option.some.inj h
      exact move_closeSessions _ (Or.inr ⟨hstop, rfl⟩)
  · next hstop =>
      obtain rfl := Option.some.inj h
      exact .closeTargets (fun _ => rfl) (fun _ => rfl) (Or.inr (Or.inr (Or.inl ⟨hstop, rfl⟩)))
  · next hstop =>
      obtain rfl := Option.some.inj h
      exact .closeTargets (fun _ => rfl) (fun _ => rfl) (Or.inr (Or.inr (Or.inr ⟨rfl, hstop, rfl⟩)))
  · exact absurd h (by simp)

/-- **Refinement.**  Every step of the server is a move of its skeleton. -/
theorem move_of_step (h : step s e = some s') : Move s.skeleton e s'.skeleton := by
  cases e with
  | listen p =>
      obtain ⟨hstop, h⟩ := Option.ite_none_right_eq_some.mp h
      obtain rfl := Option.some.inj h
      exact .listen hstop
  | startCleanup =>
      obtain ⟨_, h⟩ := Option.ite_none_right_eq_some.mp h
      obtain rfl := Option.some.inj h
      exact .startCleanup
  | select g =>
      obtain ⟨hg, h⟩ := Option.ite_none_right_eq_some.mp h
      split at h
      · obtain rfl := Option.some.inj h
        exact move_leave hg
      · next hdone =>
          split at h
          · exact absurd h (by simp)
          · obtain rfl := Option.some.inj h
            exact .goto hg fun _ => Or.inr (ctx_alive (by simpa using hdone))
  | datagram l addr data =>
      obtain ⟨hr, h⟩ := Option.ite_none_right_eq_some.mp h
      obtain rfl := Option.some.inj h
      exact move_received (reading_goroutine hr) _ _
  | accept l =>
      obtain ⟨hr, h⟩ := Option.ite_none_right_eq_some.mp h
      obtain rfl := Option.some.inj h
      exact .accept (reading_goroutine hr) (by simp)
  | lengthRead c length =>
      obtain ⟨hr, h⟩ := Option.ite_none_right_eq_some.mp h
      split at h <;> obtain rfl := Option.some.inj h
      · exact move_leave (reading_goroutine hr)
      · exact .goto (reading_goroutine hr) fun _ => Or.inl trivial
  | dataRead c data =>
      obtain ⟨hr, h⟩ := Option.ite_none_right_eq_some.mp h
      obtain rfl := Option.some.inj h
      exact move_received (reading_goroutine hr) _ _
  | targetRead o =>
      obtain ⟨hr, h⟩ := Option.ite_none_right_eq_some.mp h
      obtain rfl := Option.some.inj h
      exact move_goto (reading_goroutine hr) id
  | deadline o =>
      obtain ⟨hg, h⟩ := Option.ite_none_right_eq_some.mp h
      obtain rfl := Option.some.inj h
      exact move_goto hg id
  | readFails g =>
      simp only [step] at h
      split at h
      · next hg =>
          split at h <;> obtain rfl := Option.some.inj h
          · exact move_leave hg
          · exact move_goto hg id
      · next hg =>
          split at h <;> obtain rfl := Option.some.inj h
          · exact move_leave hg
          · exact move_goto hg id
      · next hg =>
          obtain rfl := Option.some.inj h
          exact move_leave hg
      · next hg =>
          obtain rfl := Option.some.inj h
          exact move_leave hg
      · next hg =>
          obtain rfl := Option.some.inj h
          exact move_leave hg
      · exact absurd h (by simp)
  | proceed g now connected => exact move_of_stepSection h
  | sweep now =>
      obtain ⟨_, h⟩ := Option.ite_none_right_eq_some.mp h
      obtain rfl := Option.some.inj h
      exact .closeTargets (fun _ => rfl) (fun _ => rfl) (Or.inl rfl)
  | stop => exact move_of_stepStop h

end Refinement

/-! ### The invariant -/

/-- How many of the `n` listeners `Stop` has closed. -/
def StopPc.closedListeners (n : ℕ) : StopPc → ℕ
  | .running => 0
  | .listeners i => i
  | _ => n

/-- What holds of the skeleton in every run. -/
structure Inv (k : Skeleton) : Prop where
  /-- The listener of a goroutine is in `s.listeners`. -/
  known : ∀ g l, g.blocksOn = some (.listener l) → k.goroutines g ≠ none → l < k.listeners.length
  closed : ∀ l < k.stop.closedListeners k.listeners.length, k.closed (.listener l) = true
  cancelled : k.stop ≠ .running → k.ctxDone = true
  connOpen : ∀ c, k.goroutines (.tcpConn c) ≠ none → k.closed (.conn c) = false
  connFresh : ∀ c, k.nextConn ≤ c →
    k.goroutines (.tcpConn c) = none ∧ k.closed (.conn c) = false

theorem inv_new (cfg : ServerConfig) : Inv (new cfg).skeleton where
  known := fun _ _ _ h => absurd rfl h
  closed := fun _ h => absurd h (Nat.not_lt_zero _)
  cancelled := fun h => absurd rfl h
  connOpen := fun _ _ => rfl
  connFresh := fun _ _ => ⟨rfl, rfl⟩

/-- A goroutine other than the one that moves is where it was. -/
theorem goroutines_setGoroutine (k : Skeleton) (g g' : Goroutine) (pc : Option Pc) :
    (k.setGoroutine g pc).goroutines g' = if g' = g then pc else k.goroutines g' := by
  by_cases h : g' = g <;> simp [Skeleton.setGoroutine, h]

/-- A goroutine that `wg` counts already, or that never blocks, moves on. -/
theorem Inv.set {k : Skeleton} (hi : Inv k) {g : Goroutine} {pc : Option Pc}
    (hg : pc ≠ none → k.goroutines g ≠ none ∨ g.blocksOn = none) : Inv (k.setGoroutine g pc) where
  known := fun g' l hb hpc => by
    rw [goroutines_setGoroutine] at hpc
    split at hpc
    · next he =>
        subst he
        rcases hg hpc with h | h
        · exact hi.known g' l hb h
        · exact absurd (h.symm.trans hb) (by simp)
    · exact hi.known g' l hb hpc
  closed := hi.closed
  cancelled := hi.cancelled
  connOpen := fun c hpc => by
    rw [goroutines_setGoroutine] at hpc
    split at hpc
    · next he =>
        subst he
        rcases hg hpc with h | h
        · exact hi.connOpen c h
        · exact absurd h (by simp [Goroutine.blocksOn])
    · exact hi.connOpen c hpc
  connFresh := fun c hc => by
    refine ⟨?_, (hi.connFresh c hc).2⟩
    rw [goroutines_setGoroutine]
    split
    · next he =>
        subst he
        by_contra hpc
        rcases hg hpc with h | h
        · exact h (hi.connFresh c hc).1
        · exact absurd h (by simp [Goroutine.blocksOn])
    · exact (hi.connFresh c hc).1

theorem blocksOn_listenerGoroutine (l : ListenerId) (p : Config.Protocol) :
    (listenerGoroutine l p).blocksOn = some (.listener l) := by
  cases p <;> rfl

theorem listenerGoroutine_ne_tcpConn (l : ListenerId) (p : Config.Protocol) (c : ConnId) :
    Goroutine.tcpConn c ≠ listenerGoroutine l p := by
  cases p <;> simp [listenerGoroutine]

/-- A new listener, before `Stop` is called. -/
theorem Inv.listen {k : Skeleton} (hi : Inv k) (hstop : k.stop = .running) (p : Config.Protocol) :
    Inv ({ k with listeners := k.listeners ++ [p] }.setGoroutine
      (listenerGoroutine k.listeners.length p) (some .check)) where
  known := fun g l hb hpc => by
    have hlen : (k.listeners ++ [p]).length = k.listeners.length + 1 := by simp
    rw [goroutines_setGoroutine] at hpc
    show l < (k.listeners ++ [p]).length
    split at hpc
    · next he =>
        rw [he, blocksOn_listenerGoroutine] at hb
        obtain rfl := Socket.listener.inj (Option.some.inj hb)
        omega
    · have hlt := hi.known g l hb hpc
      omega
  closed := fun l hl => by
    have hzero : StopPc.closedListeners (k.listeners ++ [p]).length k.stop = 0 := by rw [hstop]; rfl
    exact absurd (lt_of_lt_of_eq hl hzero) (Nat.not_lt_zero l)
  cancelled := fun h => absurd hstop h
  connOpen := fun c hpc => by
    rw [goroutines_setGoroutine, if_neg (listenerGoroutine_ne_tcpConn _ p c)] at hpc
    exact hi.connOpen c hpc
  connFresh := fun c hc => by
    rw [goroutines_setGoroutine, if_neg (listenerGoroutine_ne_tcpConn _ p c)]
    exact hi.connFresh c hc

/-- `handleTCPConn` closes its connection on its way out. -/
theorem Inv.closeConn {k : Skeleton} (hi : Inv k) {c : ConnId}
    (hc : k.goroutines (.tcpConn c) ≠ none) :
    Inv ((k.close (.conn c)).setGoroutine (.tcpConn c) none) where
  known := fun g l hb hpc => by
    rw [goroutines_setGoroutine] at hpc
    split at hpc
    · exact absurd rfl hpc
    · exact hi.known g l hb hpc
  closed := fun l hl => by
    have hold := hi.closed l hl
    simpa [Skeleton.setGoroutine, Skeleton.close, Function.update_apply] using hold
  cancelled := hi.cancelled
  connOpen := fun c' hpc => by
    rw [goroutines_setGoroutine] at hpc
    split at hpc
    · exact absurd rfl hpc
    · next hne =>
        have hold := hi.connOpen c' hpc
        have hsock : Socket.conn c' ≠ .conn c := fun h => hne (by rw [Socket.conn.inj h])
        simpa [Skeleton.setGoroutine, Skeleton.close, Function.update_of_ne hsock] using hold
  connFresh := fun c' hc' => by
    have hne : c' ≠ c := fun h => hc (h ▸ (hi.connFresh c' hc').1)
    have hg : Goroutine.tcpConn c' ≠ .tcpConn c := fun h => hne (Goroutine.tcpConn.inj h)
    have hsock : Socket.conn c' ≠ .conn c := fun h => hne (Socket.conn.inj h)
    rw [goroutines_setGoroutine, if_neg hg]
    simpa [Skeleton.setGoroutine, Skeleton.close, Function.update_of_ne hsock]
      using hi.connFresh c' hc'

/-- A new connection gets a number and a goroutine of its own. -/
theorem Inv.accept {k : Skeleton} (hi : Inv k) :
    Inv ({ k with nextConn := k.nextConn + 1 }.setGoroutine (.tcpConn k.nextConn)
      (some .check)) where
  known := fun g l hb hpc => by
    rw [goroutines_setGoroutine] at hpc
    split at hpc
    · next he =>
        rw [he] at hb
        exact absurd hb (by simp [Goroutine.blocksOn])
    · exact hi.known g l hb hpc
  closed := hi.closed
  cancelled := hi.cancelled
  connOpen := fun c hpc => by
    rw [goroutines_setGoroutine] at hpc
    split at hpc
    · next he =>
        obtain rfl := Goroutine.tcpConn.inj he
        exact (hi.connFresh _ (le_refl _)).2
    · exact hi.connOpen c hpc
  connFresh := fun c hc => by
    have hlt : k.nextConn < c := hc
    have hg : Goroutine.tcpConn c ≠ .tcpConn k.nextConn := fun h =>
      absurd (Goroutine.tcpConn.inj h) (Nat.ne_of_gt hlt)
    rw [goroutines_setGoroutine, if_neg hg]
    exact hi.connFresh c (le_of_lt hlt)

/-- A new listener socket, or a new step of `Stop`, with the goroutines left alone. -/
theorem Inv.stopMoves {k : Skeleton} (hi : Inv k) {closed : Socket → Bool} {stop : StopPc}
    {done : Bool} (hconn : ∀ c, closed (.conn c) = k.closed (.conn c))
    (hdone : stop ≠ .running → done = true)
    (hclosed : ∀ l < stop.closedListeners k.listeners.length, closed (.listener l) = true) :
    Inv { k with closed := closed, stop := stop, ctxDone := done } where
  known := hi.known
  closed := hclosed
  cancelled := hdone
  connOpen := fun c hpc => (hconn c).trans (hi.connOpen c hpc)
  connFresh := fun c hc => ⟨(hi.connFresh c hc).1, (hconn c).trans (hi.connFresh c hc).2⟩

/-- The step lemma. -/
theorem Inv.move {k k' : Skeleton} {e : Event} (hi : Inv k) (hm : Move k e k') : Inv k' := by
  cases hm with
  | listen hstop => exact hi.listen hstop _
  | startCleanup => exact hi.set fun _ => Or.inr rfl
  | goto hg _ => exact hi.set fun _ => Or.inl (by simp [hg])
  | leave _ => exact hi.set fun h => absurd rfl h
  | closeConn hc => exact hi.closeConn hc
  | accept hg _ => exact (hi.set fun _ => Or.inl (by simp [hg])).accept
  | @create g pc pc' o hg _ =>
      refine (hi.set fun _ => Or.inr rfl).set fun _ => Or.inl ?_
      rw [goroutines_setGoroutine]
      split <;> simp [hg]
  | @closeTargets closed stop hl hc hstop =>
      refine hi.stopMoves hc (fun h => hi.cancelled fun hr => ?_) fun l hlt => ?_
      · rcases hstop with he | ⟨he, _⟩ | ⟨he, _⟩ | ⟨_, he, _⟩
        · exact h (he.trans hr)
        · exact absurd (he.symm.trans hr) (by simp)
        · exact absurd (he.symm.trans hr) (by simp)
        · exact absurd (he.symm.trans hr) (by simp)
      · rw [hl]
        refine hi.closed l ?_
        rcases hstop with rfl | ⟨he, rfl⟩ | ⟨he, rfl⟩ | ⟨_, he, rfl⟩
        · exact hlt
        · rw [he]; exact hlt
        · rw [he]; exact hlt
        · rw [he]; exact hlt
  | cancel _ =>
      exact hi.stopMoves (fun _ => rfl) (fun _ => rfl) fun l h => absurd h (Nat.not_lt_zero l)
  | @closeListener n hstop hn =>
      refine hi.stopMoves (fun c => by simp [Skeleton.close])
        (fun _ => hi.cancelled (by simp [hstop])) fun l hlt => ?_
      have hle : l < n + 1 := hlt
      by_cases he : l = n
      · simp [Skeleton.close, he]
      · have hold : k.closed (.listener l) = true := hi.closed l (by rw [hstop]; show l < n; omega)
        simpa [Skeleton.close, Function.update_apply, he] using hold
  | @listenersDone n hstop hn =>
      refine hi.stopMoves (fun _ => rfl) (fun _ => hi.cancelled (by simp [hstop])) fun l hlt => ?_
      have hlen : l < k.listeners.length := hlt
      exact hi.closed l (by rw [hstop]; show l < n; omega)

namespace NoConnRead

variable {k : Skeleton} {g : Goroutine}

/-- A goroutine moves on; one of a connection not into a read. -/
theorem goto (hno : NoConnRead k.goroutines) {pc : Pc}
    (hpc : ∀ c, g = .tcpConn c → ¬ pc.Reads) :
    NoConnRead (k.setGoroutine g (some pc)).goroutines := by
  intro c pc' hc
  rw [goroutines_setGoroutine] at hc
  split at hc
  · next he =>
      obtain rfl := Option.some.inj hc
      exact hpc c he.symm
  · exact hno c pc' hc

theorem leave (hno : NoConnRead k.goroutines) :
    NoConnRead (k.setGoroutine g none).goroutines := by
  intro c pc' hc
  rw [goroutines_setGoroutine] at hc
  split at hc
  · exact absurd hc (by simp)
  · exact hno c pc' hc

end NoConnRead

/-- Once the context is cancelled nobody enters a read. -/
theorem noConnRead_move {k k' : Skeleton} {e : Event} (hm : Move k e k')
    (hdone : k.ctxDone = true) (hno : NoConnRead k.goroutines) : NoConnRead k'.goroutines := by
  cases hm with
  | listen _ => exact hno.goto fun _ _ => id
  | startCleanup => exact hno.goto fun _ _ => id
  | @goto g pc pc' hg hreads =>
      refine hno.goto fun c hc hr => ?_
      subst hc
      rcases hreads hr with hold | halive
      · exact hno c pc hg hold
      · exact absurd (halive.symm.trans hdone) (by simp)
  | leave _ => exact hno.leave
  | closeConn _ => exact hno.leave
  | accept _ _ => exact (hno.goto fun _ _ => id).goto fun _ _ => id
  | create _ hpc => exact (hno.goto fun _ _ => id).goto fun _ _ => hpc
  | closeTargets _ _ _ => exact hno
  | cancel _ => exact hno
  | closeListener _ _ => exact hno
  | listenersDone _ _ => exact hno

/-- `Stop` waits already, or this is the step that brings it there. -/
theorem Move.waiting {k k' : Skeleton} {e : Event} (hm : Move k e k')
    (hwait : k'.stop = .waiting) :
    k.stop = .waiting ∨ e = .stop ∧ k.stop = .conns ∧ k'.goroutines = k.goroutines := by
  cases hm with
  | closeTargets _ _ hstop =>
      rcases hstop with he | ⟨_, he⟩ | ⟨_, he⟩ | ⟨he, hconns, _⟩
      · exact Or.inl (he ▸ hwait)
      · exact absurd (he.symm.trans hwait) (by simp)
      · exact absurd (he.symm.trans hwait) (by simp)
      · exact Or.inr ⟨he, hconns, rfl⟩
  | cancel _ => exact absurd hwait (by simp)
  | closeListener _ _ => exact absurd hwait (by simp)
  | listenersDone _ _ => exact absurd hwait (by simp)
  | _ => exact Or.inl hwait

/-! ### Runs -/

theorem machine_step {cfg : ServerConfig} {s s' : State} {e : Event} {obs : List Empty}
    (h : (machine cfg).step s e = some (s', obs)) : step s e = some s' := by
  obtain ⟨s₁, hs, he⟩ := Option.map_eq_some_iff.mp h
  rw [← (Prod.mk.inj he).1]
  exact hs

theorem inv_exec {cfg : ServerConfig} {es : List Event} {s : State} {tr : List Empty}
    (hrun : (machine cfg).exec es = some (s, tr)) : Inv s.skeleton :=
  (machine cfg).invariant (I := fun s _ => Inv s.skeleton) (inv_new cfg)
    (fun _ _ _ _ _ hi hs => hi.move (move_of_step (machine_step hs))) hrun

/-- When `Stop` waits it has closed every listener, so only connections can be left. -/
theorem released_of_noConnRead {s : State} (hi : Inv s.skeleton) (hwait : s.stop = .waiting)
    (hno : NoConnRead s.goroutines) : Released s := by
  intro g pc k hg hpc hb
  have hlistener : ∀ l, g.blocksOn = some (.listener l) → s.closed (.listener l) = true := by
    intro l hl
    have hlt := hi.known g l hl fun hnone => absurd (hg.symm.trans hnone) (by simp)
    refine hi.closed l ?_
    rw [show s.skeleton.stop = _ from hwait]
    exact hlt
  cases g with
  | udpListener l =>
      obtain rfl := Option.some.inj hb
      exact hlistener l rfl
  | tcpListener l =>
      obtain rfl := Option.some.inj hb
      exact hlistener l rfl
  | tcpConn c => exact absurd hpc (hno c pc hg)
  | targetResponse o => exact absurd hb (by simp [Goroutine.blocksOn])
  | sessionCleanup => exact absurd hb (by simp [Goroutine.blocksOn])

/-- Nobody closes a connection under the goroutine that reads it. -/
theorem noConnRead_of_released {s : State} (hi : Inv s.skeleton) (h : Released s) :
    NoConnRead s.goroutines := by
  intro c pc hc hpc
  have hclosed := h _ pc _ hc hpc rfl
  have hopen : s.closed (.conn c) = false :=
    hi.connOpen c fun hnone => absurd (hc.symm.trans hnone) (by simp)
  exact absurd (hclosed.symm.trans hopen) (by simp)

/-- The last step of `Stop` before it waits. -/
def ReachesWait (s : State) (e : Event) : Prop := e = .stop ∧ s.stop = .conns

/-- **When `Stop` releases everybody.**  In every run of the server, with any listeners, sessions
and accepted connections: while `Stop` waits, every goroutine that `wg` counts and that is in a
read without a deadline reads from a closed socket, if and only if no goroutine is in a read of an
accepted connection when `Stop` reaches `wg.Wait`. -/
theorem stop_releases_iff (cfg : ServerConfig) (es : List Event) {s : State} {tr : List Empty}
    (hrun : (machine cfg).exec es = some (s, tr)) :
    (machine cfg).Always (fun s _ => s.stop = .waiting → Released s) es ↔
      (machine cfg).Each (fun s _ e => ReachesWait s e → NoConnRead s.goroutines) es := by
  constructor
  · refine Machine.each_of_always (fun es s tr e s' o hexec hs hP hreach => ?_) hrun
    obtain ⟨rfl, hstop⟩ := hreach
    have hstep := machine_step hs
    have hinv := (inv_exec hexec).move (move_of_step hstep)
    simp only [step, stepStop, hstop] at hstep
    obtain rfl := Option.some.inj hstep
    have hno := noConnRead_of_released hinv (hP rfl)
    exact hno
  · intro hC
    have hinv : (machine cfg).Always (fun s _ => Inv s.skeleton ∧
        (s.stop = .waiting → NoConnRead s.goroutines)) es := by
      refine Machine.always_of_each ⟨inv_new cfg, fun h => absurd h (by simp [machine, new])⟩
        (fun s tr e s' o hP hreach hs => ?_) hC
      obtain ⟨hi, hno⟩ := hP
      have hm := move_of_step (machine_step hs)
      refine ⟨hi.move hm, fun hwait => ?_⟩
      rcases hm.waiting hwait with hold | ⟨he, hstop, hsame⟩
      · have hdone : s.ctxDone = true := hi.cancelled fun h => absurd (h.symm.trans hold) (by simp)
        exact noConnRead_move hm hdone (hno hold)
      · have hbefore := hreach ⟨he, hstop⟩
        rwa [show s'.goroutines = s.goroutines from hsame]
    intro pre hpre s tr hexec hwait
    obtain ⟨hi, hno⟩ := hinv pre hpre s tr hexec
    exact released_of_noConnRead hi hwait (hno hwait)

/-- A configuration to run. -/
def demoConfig : ServerConfig := ⟨100, 60⟩

/-- A server with one listener of each kind; a TCP connection is accepted and its goroutine is in
the read of a length. -/
def acceptOne : List Event :=
  [.listen .udp, .listen .tcp, .startCleanup, .select (.udpListener 0), .select (.tcpListener 1),
    .accept 1, .select (.tcpConn 0)]

/-- `Stop`, up to `wg.Wait`: cancel, close two listeners, and the three tables. -/
def stopAll : List Event := List.replicate 7 .stop

/-- The connection stays open and its goroutine in the read: `Stop` waits for the client. -/
theorem stop_hangs_on_connection :
    ∃ s tr, (machine demoConfig).exec (acceptOne ++ stopAll) = some (s, tr) ∧
      s.stop = .waiting ∧ s.goroutines (.tcpConn 0) = some .read ∧
      s.closed (.conn 0) = false ∧ ¬ Released s := by
  have hview : ((machine demoConfig).exec (acceptOne ++ stopAll)).map
      (fun r => (r.1.stop, r.1.goroutines (.tcpConn 0), r.1.closed (.conn 0))) =
        some (.waiting, some .read, false) := by decide
  obtain ⟨⟨s, tr⟩, hrun, hv⟩ := Option.map_eq_some_iff.mp hview
  simp only [Prod.mk.injEq] at hv
  obtain ⟨hstop, hread, hopen⟩ := hv
  refine ⟨s, tr, hrun, hstop, hread, hopen, fun h => ?_⟩
  have hclosed := h (.tcpConn 0) .read (.conn 0) hread trivial rfl
  exact absurd (hclosed.symm.trans hopen) (by simp)

/-- The client hangs up before `Stop` is called. -/
def hangUpFirst : List Event :=
  acceptOne ++ [Event.readFails (.tcpConn 0), Event.proceed (.tcpConn 0) 10 true] ++ stopAll

/-- A check that no connection accepted so far is being read. -/
def noConnReadSoFar (s : State) : Bool :=
  (List.range s.nextConn).all fun c => (s.goroutines (.tcpConn c)).all fun pc => !decide pc.Reads

theorem noConnRead_of_check {s : State} (hi : Inv s.skeleton) (h : noConnReadSoFar s = true) :
    NoConnRead s.goroutines := by
  intro c pc hc hpc
  have hlt : c < s.nextConn := by
    by_contra hge
    have hnone := (hi.connFresh c (Nat.not_lt.mp hge)).1
    exact absurd (hc.symm.trans hnone) (by simp)
  have hall := List.all_eq_true.mp h c (List.mem_range.mpr hlt)
  rw [hc] at hall
  exact absurd hpc (by simpa using hall)

/-- Then everybody is released. -/
theorem stop_releases_after_hang_up :
    (∃ s tr, (machine demoConfig).exec hangUpFirst = some (s, tr) ∧ s.stop = .waiting) ∧
      (machine demoConfig).Always (fun s _ => s.stop = .waiting → Released s) hangUpFirst := by
  have hview : ((machine demoConfig).exec hangUpFirst).map (fun r => r.1.stop) =
      some .waiting := by decide
  obtain ⟨⟨s, tr⟩, hrun, hwait⟩ := Option.map_eq_some_iff.mp hview
  refine ⟨⟨s, tr, hrun, hwait⟩, (stop_releases_iff demoConfig hangUpFirst hrun).mpr ?_⟩
  have hcheck : ∀ (s : State) (tr : List Empty) (e : Event),
      (!decide (e = .stop ∧ s.stop = .conns) || noConnReadSoFar s) = true →
        ReachesWait s e → noConnReadSoFar s = true := by
    intro s _ e h hreach
    simpa [show e = .stop ∧ s.stop = .conns from hreach] using h
  have heach : (machine demoConfig).Each
      (fun s _ e => ReachesWait s e → noConnReadSoFar s = true) hangUpFirst :=
    Machine.each_of_check hcheck (by decide)
  exact fun pre e hpre s tr hexec hreach =>
    noConnRead_of_check (inv_exec hexec) (heach pre e hpre s tr hexec hreach)

end Fproxy.GoServer
