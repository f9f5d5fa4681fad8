import Fproxy.Library.Leases
import Fproxy.Client.Activity
import Fproxy.Client.Sending

/-!
# How long the sessions of the client last

The client keeps two kinds of leases, and one sweep looks at both.  The session of a source is
renewed by every datagram of the source and every response to it, a connection by every datagram
that is about to be written to it.  A connection is also given up when a response reader ends.

The session of a source is renewed by several tasks, which read the clock before they ask for the
lock; one that had to wait may replace a later time by an earlier one.  A connection is renewed by
the listener alone.

* `delayedUdpLeases`, `clockedTcpLeases` — the runs of the client under a clock, which for the
  sessions of the sources a task may have read some time ago, observed through what they mean for
  either kind.
* `UdpLeaseStep`, `TcpLeaseStep` — what one move does to them.
* **`udp_session_lasts_while_used`** — the session of a source is in the table if and only if no
  sweep found the time last written older than the timeout.
* **`tcp_session_lasts_while_used`** — a connection is in the table if and only if moreover no
  reader that ended has given it up, and is cancelled otherwise.
-/

namespace Fproxy.Client

open Fproxy.Runs Fproxy.Leases
open Fproxy.Config (cleanupInterval)

/-! ### The sessions of the sources -/

/-- What a move means for the sessions of the sources. -/
def State.udpLeaseMarks (s : State) : Event → List (Mark SessionObj)
  | .listener _ _ _ _ =>
      match s.sending with
      | none => []
      | some h =>
          match h.pc with
          | .create => if s.cl.udpSessions h.source = none then [.used s.cl.next] else []
          | .touch o _ => [.used o]
          | _ => []
  | .responder t _ _ =>
      match s.responses t with
      | none => []
      | some r =>
          match r.pc with
          | .touch _ o => [.used o]
          | _ => []
  | .sweepUdp now => [.checked now]
  | _ => []

/-- The client under a clock that is read at most `delay` before it is acted upon, observed through
what happens to the sessions of the sources. -/
def delayedUdpLeases (cfg : ClientConfig) (counter : UInt64) (delay : ℕ) :
    Machine (State × ℕ) (ℕ × Event) (ℕ × Mark SessionObj) :=
  ((machine cfg counter).observe fun s e _ _ => s.udpLeaseMarks e).delayed Event.reads delay

/-- The session is in the table. -/
def UdpStored (cl : Client) (o : SessionObj) : Prop := ∃ source, cl.udpSessions source = some o

/-- What a move that has read `now` does to the sessions of the sources, and what it is observed
as. -/
inductive UdpLeaseStep (cl cl' : Client) (now : ℕ) : List (Mark SessionObj) → Prop
  | none : cl'.cfg = cl.cfg → cl'.next = cl.next → cl'.sources = cl.sources →
      cl'.udpSessions = cl.udpSessions →
      (∀ o, (cl'.heap o).lastActivity = (cl.heap o).lastActivity) → UdpLeaseStep cl cl' now []
  | used {o : SessionObj} : o < cl.next → cl' = cl.touch o now →
      UdpLeaseStep cl cl' now [.used o]
  | created {source : SocketAddr} {random : UInt32} : cl.udpSessions source = Option.none →
      cl' = (cl.createUdpSession source random now).1 → UdpLeaseStep cl cl' now [.used cl.next]
  | swept : cl' = cl.cleanupExpiredUdp now → UdpLeaseStep cl cl' now [.checked now]

theorem udpLeaseStep_of_act {s s' : State} {e : Event} {obs tr : List Obs} {now : ℕ}
    (hi : Objects s tr) (ha : Act s e s' obs) (hnow : e.reads.getD now = now) :
    UdpLeaseStep s.cl s'.cl now (s.udpLeaseMarks e) := by
  have hsame : ∀ {cl : Client}, (∀ o, (cl.heap o).lastActivity = (s.cl.heap o).lastActivity) →
      cl.cfg = s.cl.cfg → cl.next = s.cl.next → cl.sources = s.cl.sources →
      cl.udpSessions = s.cl.udpSessions → s.udpLeaseMarks e = [] →
      UdpLeaseStep s.cl cl now (s.udpLeaseMarks e) := by
    intro cl hheap hcfg hnext hsources hsess hmarks
    rw [hmarks]
    exact .none hcfg hnext hsources hsess hheap
  cases ha with
  | @createNew h now' random b b' ht hpc hnone =>
      obtain rfl : now' = now := hnow
      simp only [State.udpLeaseMarks, ht, hpc, hnone, if_true]
      exact .created hnone rfl
  | @touch h o seq now' random b b' ht hpc =>
      obtain rfl : now' = now := hnow
      simp only [State.udpLeaseMarks, ht, hpc]
      exact .used (hi.sending h o ht (by rw [hpc]; rfl)).1 rfl
  | @responseTouch t r source o now' b ht hpc =>
      obtain rfl : now' = now := hnow
      simp only [State.udpLeaseMarks, ht, hpc]
      exact .used (hi.responses t r source o ht (by rw [hpc]; rfl)).1 rfl
  | @sweepUdp now' _ =>
      obtain rfl : now' = now := hnow
      exact .swept rfl
  | lookupHit ht hpc _ | lookupMiss ht hpc _ | createHit ht hpc _ | udpDone ht hpc
  | udpSend ht hpc | tcpDone ht hpc | tcpHit ht hpc _ | tcpMiss ht hpc _ | tcpCreateHit ht hpc _
  | tcpCreateFail ht hpc _ | tcpTouch ht hpc | tcpSend ht hpc _ | tcpTooLarge ht hpc _
  | addrHit ht hpc _ | addrMiss ht hpc _ | sessionHit ht hpc _ | sessionMiss ht hpc _
  | forward ht hpc =>
      exact hsame (fun _ => rfl) rfl rfl rfl rfl (by simp [State.udpLeaseMarks, *])
  | @number h o now' random b b' ht hpc =>
      refine hsame (fun o' => ?_) rfl rfl rfl rfl (by simp [State.udpLeaseMarks, ht, hpc])
      by_cases ho : o' = o <;> simp [takeSeq, ho]
  | @checkDup t r source o now' b ht hpc _ | @checkNew t r source o now' b ht hpc _ =>
      refine hsame (fun o' => ?_) rfl rfl rfl rfl (by simp [State.udpLeaseMarks, ht, hpc])
      by_cases ho : o' = o <;> simp [State.setResponse, checkResponse, ho]
  | @tcpCreateNew h o seq server servers now' random b' ht hpc hnone =>
      refine hsame (fun _ => ?_) ?_ ?_ ?_ ?_ (by simp [State.udpLeaseMarks, ht, hpc]) <;>
        simp only [createTcpSession, hnone, if_true]
  | @cleanup c _ =>
      have heq := cleanupTcpSession_eq s.cl (s.cl.readers c).key
      refine hsame (fun _ => ?_) ?_ ?_ ?_ ?_ rfl <;>
        simp only [setReader] <;> rw [heq]
  | _ => exact hsame (fun _ => rfl) rfl rfl rfl rfl rfl

/-- The sessions of the sources go by the trace. -/
structure UdpLeased (cfg : ClientConfig) (cl : Client) (tr : List (ℕ × Mark SessionObj)) :
    Prop where
  cfg_eq : cl.cfg = cfg
  tracks : Tracks cfg.sessionTimeout tr (· < cl.next) (UdpStored cl)
    (fun o => (cl.heap o).lastActivity)
  undropped : ∀ o, ¬ Dropped tr o
  listed : ∀ source o, cl.udpSessions source = some o → source ∈ cl.sources

namespace UdpLeased

variable {cfg : ClientConfig} {cl cl' : Client} {tr : List (ℕ × Mark SessionObj)} {now : ℕ}

theorem undropped_snoc (hi : UdpLeased cfg cl tr) {m : Mark SessionObj}
    (hm : ∀ o, m ≠ .dropped o) : ∀ o, ¬ Dropped (tr ++ [(now, m)]) o := by
  intro o hd
  rcases dropped_snoc.mp hd with hd | hd
  · exact hi.undropped o hd
  · exact hm o hd

/-- A session is created. -/
theorem create (hi : UdpLeased cfg cl tr) {source : SocketAddr} {random : UInt32}
    (hnone : cl.udpSessions source = none) :
    UdpLeased cfg (cl.createUdpSession source random now).1
      (tr ++ [(now, Mark.used cl.next)]) := by
  simp only [createUdpSession, hnone]
  have hstored : ∀ o, (∃ a, Function.update cl.udpSessions source (some cl.next) a = some o) ↔
      o = cl.next ∨ UdpStored cl o := by
    intro o
    constructor
    · rintro ⟨a, ha⟩
      by_cases he : a = source
      · rw [he, Function.update_self] at ha
        exact Or.inl (Option.some.inj ha).symm
      · rw [Function.update_of_ne he] at ha
        exact Or.inr ⟨a, ha⟩
    · rintro (rfl | ⟨a, ha⟩)
      · exact ⟨source, Function.update_self _ _ _⟩
      · have he : a ≠ source := by
          rintro rfl
          exact absurd (hnone.symm.trans ha) (by simp)
        exact ⟨a, by rw [Function.update_of_ne he]; exact ha⟩
  refine ⟨hi.cfg_eq, hi.tracks.use (fun o => ?_) (fun o ho => ?_)
    (fun _ => ⟨(hstored _).mpr (Or.inl rfl), hi.undropped _⟩) ?_ (fun o ho => ?_),
    hi.undropped_snoc (by simp), fun a o ha => ?_⟩
  · rw [Nat.lt_succ_iff, Nat.le_iff_lt_or_eq]
  · exact (hstored o).trans (or_iff_right (Nat.ne_of_lt ho))
  · simp only [Function.update_self, UdpSession.new]
  · simp only [Function.update_of_ne ho]
  · by_cases he : a = source
    · rw [he]
      exact List.mem_append_right _ (List.mem_singleton_self _)
    · have ha : Function.update cl.udpSessions source (some cl.next) a = some o := ha
      rw [Function.update_of_ne he] at ha
      exact List.mem_append_left _ (hi.listed a o ha)

/-- The first half of the sweep. -/
theorem sweep (hi : UdpLeased cfg cl tr) :
    UdpLeased cfg (cl.cleanupExpiredUdp now) (tr ++ [(now, Mark.checked now)]) := by
  have hlive : ∀ a o, cl.udpSessions a = some o → (cl.expired now a = false ↔
      now ≤ (cl.heap o).lastActivity + cfg.sessionTimeout) := by
    intro a o ha
    simp only [expired, ha, hi.cfg_eq, decide_eq_false_iff_not]
    omega
  have hstored : ∀ o, UdpStored (cl.cleanupExpiredUdp now) o ↔
      UdpStored cl o ∧ now ≤ (cl.heap o).lastActivity + cfg.sessionTimeout := by
    intro o
    constructor
    · rintro ⟨a, h⟩
      have ha := udpSessions_of_cleanupExpiredUdp h
      refine ⟨⟨a, ha⟩, (hlive a o ha).mp ?_⟩
      by_contra hexp
      have hm : a ∈ cl.sources.filter (cl.expired now) :=
        List.mem_filter.mpr ⟨hi.listed a o ha, by simpa using hexp⟩
      simp only [cleanupExpiredUdp, if_pos hm] at h
      exact absurd h (by simp)
    · rintro ⟨⟨a, ha⟩, hrecent⟩
      have hm : a ∉ cl.sources.filter (cl.expired now) := by
        intro hm
        have hexp := (List.mem_filter.mp hm).2
        rw [(hlive a o ha).mpr hrecent] at hexp
        exact absurd hexp (by simp)
      refine ⟨a, ?_⟩
      simp only [cleanupExpiredUdp, if_neg hm]
      exact ha
  refine ⟨hi.cfg_eq, hi.tracks.check (le_refl now) (fun _ => Iff.rfl) (fun o _ => hstored o)
    (fun _ _ => rfl), hi.undropped_snoc (by simp), fun a o h => ?_⟩
  have ha := udpSessions_of_cleanupExpiredUdp h
  refine List.mem_filter.mpr ⟨hi.listed a o ha, ?_⟩
  by_contra hm
  have hm : a ∈ cl.sources.filter (cl.expired now) := by simpa using hm
  simp only [cleanupExpiredUdp, if_pos hm] at h
  exact absurd h (by simp)

/-- The step lemma. -/
theorem step {marks : List (Mark SessionObj)} (hi : UdpLeased cfg cl tr)
    (hs : UdpLeaseStep cl cl' now marks) :
    UdpLeased cfg cl' (tr ++ marks.map (Prod.mk now)) := by
  cases hs with
  | none hcfg hnext hsources hsess hheap =>
      have hstored : ∀ o, UdpStored cl' o ↔ UdpStored cl o := fun o => by
        unfold UdpStored
        rw [hsess]
      rw [List.map_nil, List.append_nil]
      refine ⟨hcfg.trans hi.cfg_eq, hi.tracks.frame (fun o => by rw [hnext])
        (fun o _ => hstored o) (fun o _ => hheap o), hi.undropped, fun a o h => ?_⟩
      rw [hsess] at h
      rw [hsources]
      exact hi.listed a o h
  | @used o hlt h =>
      rw [h]
      refine ⟨hi.cfg_eq, hi.tracks.use (fun o' => ?_) (fun _ _ => Iff.rfl)
        (fun hnot => absurd hlt hnot) ?_ (fun o' ho => ?_), hi.undropped_snoc (by simp),
        hi.listed⟩
      · exact (or_iff_left_of_imp fun he => he ▸ hlt).symm
      · simp only [touch, Function.update_self]
      · simp only [touch, Function.update_of_ne ho]
  | created hnone h =>
      rw [h]
      exact hi.create hnone
  | swept h =>
      rw [h]
      exact hi.sweep

end UdpLeased

section Runs

variable {cfg : ClientConfig} {counter : UInt64} {delay : ℕ} {es : List (ℕ × Event)}
  {s : State × ℕ} {tr : List (ℕ × Mark SessionObj)}

/-- The run lemma. -/
theorem udpLeased_exec (h : (delayedUdpLeases cfg counter delay).exec es = some (s, tr)) :
    UdpLeased cfg s.1.cl tr := by
  refine (delayedUdpLeases cfg counter delay).exec_induction
    (P := fun _ s tr => UdpLeased cfg s.1.cl tr)
    ⟨rfl, .nil fun _ hk => absurd hk (Nat.not_lt_zero _), fun _ hd => ?_,
      fun _ _ h => absurd h (by simp [delayedUdpLeases, Machine.delayed, Machine.observe,
        machine, new])⟩
    (fun es s tr e s' o hrun hi hs => ?_) es s tr h
  · obtain ⟨_, hm⟩ := hd
    exact absurd hm List.not_mem_nil
  · obtain ⟨-, marks, hstep, -, rfl⟩ := Machine.delayed_step.mp hs
    obtain ⟨obs, hact, rfl⟩ := Machine.observe_step.mp hstep
    obtain ⟨_, hrun'⟩ := Machine.exec_of_observe (Machine.delayed_exec hrun)
    have hreads : e.2.reads.getD (e.2.reads.getD e.1) = e.2.reads.getD e.1 := by
      cases e.2.reads <;> rfl
    exact hi.step (udpLeaseStep_of_act (objects_exec hrun') (act_of_machine hact) hreads)

/-- **The session of a source lasts while it is used.**  Take any moment of a run whose tasks act on
clock readings that are at most `delay` old.  A session ever created is out of the table if and only
if a sweep found the time last written to it longer ago than the timeout, and then all its uses
before were longer ago than the timeout less the delay; and if the last sweep is not longer ago than
the loop waits between two of them, then a session in the table has been used within the timeout,
that interval and the delay. -/
theorem udp_session_lasts_while_used
    (h : (delayedUdpLeases cfg counter delay).exec es = some (s, tr)) :
    (∀ o < s.1.cl.next, (¬ UdpStored s.1.cl o ↔ Expired cfg.sessionTimeout tr o) ∧
      (delay ≤ cfg.sessionTimeout → ¬ UdpStored s.1.cl o →
        Lapsed (cfg.sessionTimeout - delay) tr o)) ∧
    (CheckedWithin (cleanupInterval cfg.sessionTimeout) tr s.2 → ∀ o, UdpStored s.1.cl o →
      ∃ u, Used tr o u ∧
        s.2 ≤ u + (cfg.sessionTimeout + cleanupInterval cfg.sessionTimeout + delay)) := by
  have hi := udpLeased_exec h
  obtain ⟨_, hrun⟩ := Machine.exec_of_observe (Machine.delayed_exec h)
  have hsorted := Machine.delayed_stamps h
  refine ⟨fun o ho => ?_, fun hcheck o hs => ?_⟩
  · have hgone : ¬ UdpStored s.1.cl o ↔ Expired cfg.sessionTimeout tr o := by
      rw [hi.tracks.held_iff o ho, and_iff_left (hi.undropped o), not_not]
    exact ⟨hgone, fun hdelay hs => (hgone.mp hs).lapsed hdelay hsorted⟩
  · obtain ⟨source, hsource⟩ := hs
    have ho : o < s.1.cl.next := ((objects_exec hrun).sessions source o hsource).1
    exact hi.tracks.used_recently hsorted hcheck ho ⟨source, hsource⟩

end Runs

/-- The listener has read the clock at 0, and has to wait until 20 for the lock; a response has
written 15 in between. -/
def staleDatagram : List (ℕ × Event) :=
  [(0, Event.sourceSends demoAddr [1])] ++ List.replicate 3 (0, Event.listener 0 0 true true) ++
    (15, Event.udpArrives 0 (Protocol.encodeUdp 1 0 [2])) ::
      List.replicate 4 (15, Event.responder (.udp 0) 15 true) ++
    [(20, Event.listener 0 0 true true), (70, Event.sweepUdp 70)]

/-- The sweep takes the session out, though it was used within the timeout. -/
theorem udp_session_lasts_while_used_stale_datagram :
    ∃ s tr, (delayedUdpLeases demoConfig 0 20).exec staleDatagram = some (s, tr) ∧
      (¬ UdpStored s.1.cl 0 ∧ Used tr 0 15) ∧
      (∀ o < s.1.cl.next, (¬ UdpStored s.1.cl o ↔ Expired demoConfig.sessionTimeout tr o) ∧
        (20 ≤ demoConfig.sessionTimeout → ¬ UdpStored s.1.cl o →
          Lapsed (demoConfig.sessionTimeout - 20) tr o)) ∧
      ∀ o, UdpStored s.1.cl o → ∃ u, Used tr o u ∧
        s.2 ≤ u + (demoConfig.sessionTimeout + cleanupInterval demoConfig.sessionTimeout + 20) := by
  have hview : ((delayedUdpLeases demoConfig 0 20).exec staleDatagram).map
      (fun r => ((r.1.1.cl.next, r.1.2), r.2)) =
        some ((1, 70), [(0, .used 0), (15, .used 0), (0, .used 0), (70, .checked 70)]) := by decide
  obtain ⟨⟨s, tr⟩, hrun, hv⟩ := Option.map_eq_some_iff.mp hview
  simp only [Prod.mk.injEq] at hv
  obtain ⟨⟨hnext, hnow⟩, htr⟩ := hv
  obtain ⟨hlasts, hrecent⟩ := udp_session_lasts_while_used hrun
  have hexpired : Expired demoConfig.sessionTimeout tr 0 :=
    ⟨tr.take 3, [], 70, 70, 0, by rw [htr]; rfl, by rw [htr]; decide, by decide⟩
  have hcheck : CheckedWithin (cleanupInterval demoConfig.sessionTimeout) tr s.2 := by
    rw [hnow]
    exact Or.inl (by decide)
  refine ⟨s, tr, hrun, ⟨(hlasts 0 (by rw [hnext]; decide)).1.mpr hexpired, ?_⟩, hlasts,
    hrecent hcheck⟩
  rw [Used, htr]
  decide

/-! ### The connections -/

/-- What a move means for the connections. -/
def State.tcpLeaseMarks (s : State) : Event → List (Mark ConnId)
  | .listener _ _ connected _ =>
      match s.sending with
      | none => []
      | some h =>
          match h.pc with
          | .tcpCreate _ _ server _ =>
              if s.cl.tcpSessions (h.source, server) = none ∧ connected = true then
                [.used s.cl.nextConn]
              else []
          | .tcpTouch _ _ c _ => [.used c]
          | _ => []
  | .cleanup c => ((s.cl.tcpSessions (s.cl.readers c).key).map Mark.dropped).toList
  | .sweepTcp => (s.sweeping.map Mark.checked).toList
  | _ => []

/-- The client under a clock, observed through what happens to its connections. -/
def clockedTcpLeases (cfg : ClientConfig) (counter : UInt64) :
    Machine (State × ℕ) (ℕ × Event) (ℕ × Mark ConnId) :=
  ((machine cfg counter).observe fun s e _ _ => s.tcpLeaseMarks e).clocked Event.reads

/-- The connection is in the table. -/
def TcpStored (cl : Client) (c : ConnId) : Prop := ∃ key, cl.tcpSessions key = some c

/-- What a move at time `now` does to the connections, and what it is observed as. -/
inductive TcpLeaseStep (cl cl' : Client) (now : ℕ) : List (Mark ConnId) → Prop
  | none : cl'.cfg = cl.cfg → cl'.nextConn = cl.nextConn → cl'.tcpSessions = cl.tcpSessions →
      (∀ c, (cl'.tcpHeap c).lastActivity = (cl.tcpHeap c).lastActivity) →
      TcpLeaseStep cl cl' now []
  | used {c : ConnId} : c < cl.nextConn → cl' = cl.touchTcp c now →
      TcpLeaseStep cl cl' now [.used c]
  | created {source : SocketAddr} {server : String} :
      cl.tcpSessions (source, server) = Option.none →
      cl' = (cl.createTcpSession source server now true).1 →
      TcpLeaseStep cl cl' now [.used cl.nextConn]
  | swept {reading : ℕ} : reading ≤ now → cl' = cl.cleanupExpiredTcp reading →
      TcpLeaseStep cl cl' now [.checked reading]
  | dropped {key : SessionKey} {c c' : ConnId} {pc : ReaderPc} : cl.tcpSessions key = some c →
      cl' = (cl.cleanupTcpSession key).setReader c' pc → TcpLeaseStep cl cl' now [.dropped c]

theorem tcpLeaseStep_of_act {s s' : State} {e : Event} {obs tr : List Obs} {now : ℕ}
    (hi : Sends s tr) (hsweep : ∀ reading ∈ s.sweeping, reading ≤ now) (ha : Act s e s' obs)
    (hnow : e.reads.getD now = now) : TcpLeaseStep s.cl s'.cl now (s.tcpLeaseMarks e) := by
  have hsame : ∀ {cl : Client},
      (∀ c, (cl.tcpHeap c).lastActivity = (s.cl.tcpHeap c).lastActivity) →
      cl.cfg = s.cl.cfg → cl.nextConn = s.cl.nextConn → cl.tcpSessions = s.cl.tcpSessions →
      s.tcpLeaseMarks e = [] → TcpLeaseStep s.cl cl now (s.tcpLeaseMarks e) := by
    intro cl hheap hcfg hnext hsess hmarks
    rw [hmarks]
    exact .none hcfg hnext hsess hheap
  cases ha with
  | @tcpCreateNew h o seq server servers now' random b' ht hpc hnone =>
      obtain rfl : now' = now := hnow
      simp only [State.tcpLeaseMarks, ht, hpc, hnone, and_self, if_true]
      exact .created hnone rfl
  | @tcpTouch h o seq c servers now' random b b' ht hpc =>
      obtain rfl : now' = now := hnow
      simp only [State.tcpLeaseMarks, ht, hpc]
      exact .used (hi.allocated c h.source (hi.conn h c ht (by rw [hpc]; rfl))) rfl
  | @cleanup c _ =>
      simp only [State.tcpLeaseMarks]
      cases hs : s.cl.tcpSessions (s.cl.readers c).key with
      | none =>
          have heq : s.cl.cleanupTcpSession (s.cl.readers c).key = s.cl := by
            simp only [cleanupTcpSession, hs]
          rw [heq]
          exact .none rfl rfl rfl fun _ => rfl
      | some c' => exact .dropped hs rfl
  | @sweepTcp reading hs =>
      simp only [State.tcpLeaseMarks, hs]
      exact .swept (hsweep reading hs) rfl
  | lookupHit ht hpc _ | lookupMiss ht hpc _ | createHit ht hpc _ | number ht hpc | touch ht hpc
  | udpDone ht hpc | udpSend ht hpc | tcpDone ht hpc | tcpHit ht hpc _ | tcpMiss ht hpc _
  | tcpCreateHit ht hpc _ | tcpCreateFail ht hpc _ | tcpSend ht hpc _ | tcpTooLarge ht hpc _ =>
      exact hsame (fun _ => rfl) rfl rfl rfl (by simp [State.tcpLeaseMarks, *])
  | @createNew h now' random b b' ht hpc hnone =>
      refine hsame (fun _ => ?_) ?_ ?_ ?_ (by simp [State.tcpLeaseMarks, ht, hpc]) <;>
        simp only [createUdpSession, hnone]
  | _ => exact hsame (fun _ => rfl) rfl rfl rfl rfl

/-- The connections go by the trace. -/
structure TcpLeased (cfg : ClientConfig) (cl : Client) (tr : List (ℕ × Mark ConnId)) : Prop where
  cfg_eq : cl.cfg = cfg
  tracks : Tracks cfg.sessionTimeout tr (· < cl.nextConn) (TcpStored cl)
    (fun c => (cl.tcpHeap c).lastActivity)
  opened : ∀ c, Dropped tr c → c < cl.nextConn

namespace TcpLeased

variable {cfg : ClientConfig} {cl cl' : Client} {tr : List (ℕ × Mark ConnId)} {now : ℕ}

theorem opened_snoc (hi : TcpLeased cfg cl tr) {m : Mark ConnId}
    (hnext : cl.nextConn ≤ cl'.nextConn) (hm : ∀ c, m = .dropped c → c < cl.nextConn) :
    ∀ c, Dropped (tr ++ [(now, m)]) c → c < cl'.nextConn := by
  intro c hd
  rcases dropped_snoc.mp hd with hd | hd
  · exact lt_of_lt_of_le (hi.opened c hd) hnext
  · exact lt_of_lt_of_le (hm c hd) hnext

/-- A connection is opened. -/
theorem create (hi : TcpLeased cfg cl tr) {source : SocketAddr} {server : String}
    (hnone : cl.tcpSessions (source, server) = none) :
    TcpLeased cfg (cl.createTcpSession source server now true).1
      (tr ++ [(now, Mark.used cl.nextConn)]) := by
  have hnext : cl.nextConn ≤ (cl.createTcpSession source server now true).1.nextConn := by
    simp only [createTcpSession, hnone, if_true]
    exact Nat.le_succ _
  have hopened : ∀ c, Dropped (tr ++ [(now, Mark.used cl.nextConn)]) c →
      c < (cl.createTcpSession source server now true).1.nextConn :=
    hi.opened_snoc hnext (by simp)
  simp only [createTcpSession, hnone, if_true] at hopened ⊢
  have hstored : ∀ c, (∃ key, Function.update cl.tcpSessions (source, server)
      (some cl.nextConn) key = some c) ↔ c = cl.nextConn ∨ TcpStored cl c := by
    intro c
    constructor
    · rintro ⟨key, hkey⟩
      by_cases he : key = (source, server)
      · rw [he, Function.update_self] at hkey
        exact Or.inl (Option.some.inj hkey).symm
      · rw [Function.update_of_ne he] at hkey
        exact Or.inr ⟨key, hkey⟩
    · rintro (rfl | ⟨key, hkey⟩)
      · exact ⟨(source, server), Function.update_self _ _ _⟩
      · have he : key ≠ (source, server) := by
          rintro rfl
          exact absurd (hnone.symm.trans hkey) (by simp)
        exact ⟨key, by rw [Function.update_of_ne he]; exact hkey⟩
  refine ⟨hi.cfg_eq, hi.tracks.use (fun c => ?_) (fun c hc => ?_) (fun hnot =>
    ⟨(hstored _).mpr (Or.inl rfl), fun hd => hnot (hi.opened _ hd)⟩) ?_ (fun c hc => ?_), hopened⟩
  · rw [Nat.lt_succ_iff, Nat.le_iff_lt_or_eq]
  · exact (hstored c).trans (or_iff_right (Nat.ne_of_lt hc))
  · simp only [Function.update_self]
  · simp only [Function.update_of_ne hc]

/-- The second half of the sweep, which goes by the clock reading of the first. -/
theorem sweep (hi : TcpLeased cfg cl tr) (hk : Keyed cl) {reading : ℕ} (hr : reading ≤ now) :
    TcpLeased cfg (cl.cleanupExpiredTcp reading) (tr ++ [(now, Mark.checked reading)]) := by
  have hlive : ∀ key c, cl.tcpSessions key = some c → (cl.expiredTcp reading key = false ↔
      reading ≤ (cl.tcpHeap c).lastActivity + cfg.sessionTimeout) := by
    intro key c hkey
    rw [expiredTcp_iff hkey, hi.cfg_eq]
  have hstored : ∀ c, TcpStored (cl.cleanupExpiredTcp reading) c ↔
      TcpStored cl c ∧ reading ≤ (cl.tcpHeap c).lastActivity + cfg.sessionTimeout := by
    intro c
    constructor
    · rintro ⟨key, h⟩
      have hkey := tcpSessions_of_cleanupExpiredTcp h
      refine ⟨⟨key, hkey⟩, (hlive key c hkey).mp ?_⟩
      by_contra hexp
      have hm : key ∈ cl.keys.filter (cl.expiredTcp reading) :=
        List.mem_filter.mpr ⟨hk.keys key c hkey, by simpa using hexp⟩
      simp only [cleanupExpiredTcp, if_pos hm] at h
      exact absurd h (by simp)
    · rintro ⟨⟨key, hkey⟩, hrecent⟩
      have hm : key ∉ cl.keys.filter (cl.expiredTcp reading) := by
        intro hm
        have hexp := (List.mem_filter.mp hm).2
        rw [(hlive key c hkey).mpr hrecent] at hexp
        exact absurd hexp (by simp)
      refine ⟨key, ?_⟩
      simp only [cleanupExpiredTcp, if_neg hm]
      exact hkey
  exact ⟨hi.cfg_eq, hi.tracks.check hr (fun _ => Iff.rfl) (fun c _ => hstored c)
    (fun c _ => cleanupExpiredTcp_lastActivity cl reading c),
    hi.opened_snoc (le_refl _) (by simp)⟩

/-- A reader that ended gives up the connection stored under its key. -/
theorem cleanup (hi : TcpLeased cfg cl tr) (hk : Keyed cl) {key : SessionKey} {c c' : ConnId}
    {pc : ReaderPc} (hkey : cl.tcpSessions key = some c) :
    TcpLeased cfg ((cl.cleanupTcpSession key).setReader c' pc)
      (tr ++ [(now, Mark.dropped c)]) := by
  have hcfg : (cl.cleanupTcpSession key).cfg = cl.cfg := by rw [cleanupTcpSession_eq]
  have hsess : (cl.cleanupTcpSession key).tcpSessions =
      Function.update cl.tcpSessions key none := by
    simp only [cleanupTcpSession, hkey]
  have hstored : ∀ c₁, TcpStored ((cl.cleanupTcpSession key).setReader c' pc) c₁ ↔
      TcpStored cl c₁ ∧ c₁ ≠ c := by
    intro c₁
    show (∃ key', (cl.cleanupTcpSession key).tcpSessions key' = some c₁) ↔ _
    simp only [hsess]
    constructor
    · rintro ⟨key', h⟩
      by_cases he : key' = key
      · rw [he, Function.update_self] at h
        exact absurd h (by simp)
      · rw [Function.update_of_ne he] at h
        refine ⟨⟨key', h⟩, ?_⟩
        rintro rfl
        exact he ((hk.stored key' c₁ h).2.1.symm.trans (hk.stored key c₁ hkey).2.1)
    · rintro ⟨⟨key', h⟩, hne⟩
      have he : key' ≠ key := by
        rintro rfl
        exact hne (Option.some.inj (h.symm.trans hkey))
      exact ⟨key', by rw [Function.update_of_ne he]; exact h⟩
  have hnext := cleanupTcpSession_nextConn cl key
  refine ⟨hcfg.trans hi.cfg_eq, hi.tracks.drop (fun c₁ => ?_) (fun h => ((hstored c).mp h).2 rfl)
    (fun c₁ _ hne => (hstored c₁).trans (and_iff_left hne))
    (fun c₁ _ => cleanupTcpSession_lastActivity cl key c₁),
    hi.opened_snoc (le_of_eq hnext.symm) fun c₁ hd => ?_⟩
  · show c₁ < (cl.cleanupTcpSession key).nextConn ↔ _
    rw [hnext]
  · rw [← Mark.dropped.inj hd]
    exact (hk.stored key c hkey).1

/-- The step lemma. -/
theorem step {marks : List (Mark ConnId)} (hi : TcpLeased cfg cl tr) (hk : Keyed cl)
    (hs : TcpLeaseStep cl cl' now marks) :
    TcpLeased cfg cl' (tr ++ marks.map (Prod.mk now)) := by
  cases hs with
  | none hcfg hnext hsess hheap =>
      have hstored : ∀ c, TcpStored cl' c ↔ TcpStored cl c := fun c => by
        unfold TcpStored
        rw [hsess]
      rw [List.map_nil, List.append_nil]
      exact ⟨hcfg.trans hi.cfg_eq, hi.tracks.frame (fun c => by rw [hnext])
        (fun c _ => hstored c) (fun c _ => hheap c), fun c hd => hnext ▸ hi.opened c hd⟩
  | @used c hlt h =>
      rw [h]
      refine ⟨hi.cfg_eq, hi.tracks.use (fun c' => ?_) (fun _ _ => Iff.rfl)
        (fun hnot => absurd hlt hnot) ?_ (fun c' hc => ?_), hi.opened_snoc (le_refl _) (by simp)⟩
      · exact (or_iff_left_of_imp fun he => he ▸ hlt).symm
      · simp only [touchTcp, Function.update_self]
      · simp only [touchTcp, Function.update_of_ne hc]
  | created hnone h =>
      rw [h]
      exact hi.create hnone
  | swept hr h =>
      rw [h]
      exact hi.sweep hk hr
  | dropped hkey h =>
      rw [h]
      exact hi.cleanup hk hkey

end TcpLeased

section Runs

variable {cfg : ClientConfig} {counter : UInt64} {es : List (ℕ × Event)} {s : State × ℕ}
  {tr : List (ℕ × Mark ConnId)}

/-- A sweep that is under way read the clock before. -/
theorem sweeping_le (h : (clockedTcpLeases cfg counter).exec es = some (s, tr)) :
    ∀ reading ∈ s.1.sweeping, reading ≤ s.2 := by
  refine (clockedTcpLeases cfg counter).exec_induction
    (P := fun _ s _ => ∀ reading ∈ s.1.sweeping, reading ≤ s.2)
    (fun _ hm => absurd hm (by simp [clockedTcpLeases, Machine.clocked, Machine.observe, machine]))
    (fun es s tr ⟨t, e⟩ ⟨s', t'⟩ o _ ih hs reading hm => ?_) es s tr h
  obtain ⟨⟨hle, hreads⟩, marks, hstep, ht, -⟩ := Machine.clocked_step.mp hs
  obtain ⟨obs, hact, -⟩ := Machine.observe_step.mp hstep
  obtain rfl : t' = t := ht
  have hkeep : s'.sweeping = s.1.sweeping → reading ≤ t' := fun heq =>
    (ih reading (heq ▸ hm)).trans hle
  cases act_of_machine hact with
  | @sweepUdp now _ =>
      obtain rfl : now = t' := hreads
      exact le_of_eq (Option.mem_some.mp hm).symm
  | sweepTcp _ => exact absurd hm (by simp)
  | _ => exact hkeep rfl

/-- The run lemma. -/
theorem tcpLeased_exec (h : (clockedTcpLeases cfg counter).exec es = some (s, tr)) :
    TcpLeased cfg s.1.cl tr := by
  refine (clockedTcpLeases cfg counter).exec_induction
    (P := fun _ s tr => TcpLeased cfg s.1.cl tr)
    ⟨rfl, .nil fun _ hk => absurd hk (Nat.not_lt_zero _), fun _ hd => ?_⟩
    (fun es s tr e s' o hrun hi hs => ?_) es s tr h
  · obtain ⟨_, hm⟩ := hd
    exact absurd hm List.not_mem_nil
  · obtain ⟨⟨hle, hreads⟩, marks, hstep, -, rfl⟩ := Machine.clocked_step.mp hs
    obtain ⟨obs, hact, rfl⟩ := Machine.observe_step.mp hstep
    obtain ⟨_, hrun'⟩ := Machine.exec_of_observe (Machine.clocked_exec hrun)
    exact hi.step (keyed_exec hrun')
      (tcpLeaseStep_of_act (sends_exec hrun')
        (fun reading hm => (sweeping_le hrun reading hm).trans hle) (act_of_machine hact) hreads)

/-- **A connection lasts while it is used.**  At any moment of a run, a connection ever opened is in
the table if and only if it is not cancelled, and that is if and only if no sweep found all its uses
longer ago than the timeout and no reader that ended gave it up; and if the last sweep is not longer
ago than the loop waits between two of them, then a connection in the table has been used within the
timeout and that interval. -/
theorem tcp_session_lasts_while_used
    (h : (clockedTcpLeases cfg counter).exec es = some (s, tr)) :
    (∀ c < s.1.cl.nextConn,
      (TcpStored s.1.cl c ↔ (s.1.cl.tcpHeap c).cancelled = false) ∧
        (TcpStored s.1.cl c ↔ ¬ Lapsed cfg.sessionTimeout tr c ∧ ¬ Dropped tr c)) ∧
    (CheckedWithin (cleanupInterval cfg.sessionTimeout) tr s.2 → ∀ c, TcpStored s.1.cl c →
      ∃ u, Used tr c u ∧
        s.2 ≤ u + (cfg.sessionTimeout + cleanupInterval cfg.sessionTimeout)) := by
  have hi := tcpLeased_exec h
  obtain ⟨_, hrun⟩ := Machine.exec_of_observe (Machine.clocked_exec h)
  have hk := keyed_exec hrun
  have hsorted : tr.Pairwise fun x y => x.1 ≤ y.1 + 0 := Machine.stamps_sorted h
  refine ⟨fun c hc => ⟨?_, ?_⟩, fun hcheck c hs => ?_⟩
  · constructor
    · rintro ⟨key, hkey⟩
      exact (hk.stored key c hkey).2.2
    · intro hlive
      exact ⟨_, hk.listed c hc hlive⟩
  · rw [hi.tracks.held_iff c hc, expired_iff_lapsed hsorted]
  · obtain ⟨key, hkey⟩ := hs
    have hc : c < s.1.cl.nextConn := (hk.stored key c hkey).1
    exact hi.tracks.used_recently hsorted hcheck hc ⟨key, hkey⟩

end Runs

/-- The connection of the same source, to which nothing was written since 10, is not. -/
theorem tcp_session_lasts_while_used_one_way :
    ∃ s tr, (clockedTcpLeases demoConfig 0).exec (oneWay ++ [(75, .sweepTcp)]) = some (s, tr) ∧
      (s.1.cl.tcpHeap 0).cancelled = true ∧
      (∀ c < s.1.cl.nextConn,
        (TcpStored s.1.cl c ↔ (s.1.cl.tcpHeap c).cancelled = false) ∧
          (TcpStored s.1.cl c ↔ ¬ Lapsed demoConfig.sessionTimeout tr c ∧ ¬ Dropped tr c)) ∧
      ∀ c, TcpStored s.1.cl c → ∃ u, Used tr c u ∧
        s.2 ≤ u + (demoConfig.sessionTimeout + cleanupInterval demoConfig.sessionTimeout) := by
  have hview : ((clockedTcpLeases demoConfig 0).exec (oneWay ++ [(75, .sweepTcp)])).map
      (fun r => ((r.1.1.cl.tcpHeap 0).cancelled, r.1.2)) = some (true, 75) := by decide
  obtain ⟨⟨s, tr⟩, hrun, hv⟩ := Option.map_eq_some_iff.mp hview
  obtain ⟨hcancelled, hnow⟩ := Prod.mk.inj hv
  obtain ⟨hlasts, hrecent⟩ := tcp_session_lasts_while_used hrun
  have hcheck : CheckedWithin (cleanupInterval demoConfig.sessionTimeout) tr s.2 := by
    rw [hnow]
    exact Or.inl (by decide)
  exact ⟨s, tr, hrun, hcancelled, hlasts, hrecent hcheck⟩

end Fproxy.Client
