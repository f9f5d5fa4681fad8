import Fproxy.Config
import Fproxy.Library.Leases
import Fproxy.Library.Simulation
import Fproxy.Server.Objects

/-!
# How long a session lasts

A session is a lease on a target socket.  Every packet of the session and every datagram from its
target renews it, by writing `last_activity`, and the sweep of `session_cleanup_loop` ends it.  All
of them read the clock before they ask for the lock, so that a task which had to wait may replace a
later time by an earlier one.

* `delayedLeases` — the runs of the server under a clock that a task may have read some time ago,
  observed through what they mean for the sessions.
* `LeaseStep` — what one move does to them.
* **`session_lasts_while_used`** — a session leaves the table if and only if a sweep found the time
  last written older than the timeout.  None leaves it within the timeout of a use, and none outlasts
  its last use by more than the timeout and one interval of the loop, up to the delay.
-/

namespace Fproxy.Server

open Fproxy.Runs Fproxy.Leases
open Fproxy.Config (cleanupInterval)

/-- The token of a session is cancelled: by a sweep, or with the token of the server, whose child it
is. -/
def State.isCancelled (s : State) (o : ObjId) : Bool := (s.srv.heap o).cancelled || s.stopped

/-- The clock reading in an event. -/
def Event.reads : Event → Option ℕ
  | .handler _ now _ _ => some now
  | .receiver _ now _ => some now
  | .sweep now => some now
  | _ => none

/-- What a move means for the sessions: `get_or_create_session` stores one, a handler or a response
task is about to write `last_activity`, or the sweep looks at it. -/
def State.leaseMarks (s : State) : Event → List (Mark ObjId)
  | .handler t _ connected _ =>
      match s.handlers t with
      | none => []
      | some h =>
          match h.pc with
          | .create =>
              if s.srv.sessions h.sessionId = none ∧ connected = true then [.used s.srv.next] else []
          | .touch o => [.used o]
          | _ => []
  | .receiver o _ _ =>
      match s.srv.receivers o with
      | .touch _ => ((s.srv.sessions (s.srv.heap o).sessionId).map Mark.used).toList
      | _ => []
  | .sweep now => [.checked now]
  | _ => []

/-- The server under a clock that is read at most `delay` before it is acted upon, observed through
what happens to its sessions. -/
def delayedLeases (cfg : ServerConfig) (delay : ℕ) :
    Machine (State × ℕ) (ℕ × Event) (ℕ × Mark ObjId) :=
  ((machine cfg).observe fun s e _ _ => s.leaseMarks e).delayed Event.reads delay

/-- The object is in the table. -/
def Stored (srv : Server) (o : ObjId) : Prop := ∃ sid, srv.sessions sid = some o

/-! ### What one move does -/

/-- What a move that has read `now` does to the sessions, and what it is observed as. -/
inductive LeaseStep (srv srv' : Server) (now : ℕ) : List (Mark ObjId) → Prop
  | none : srv'.next = srv.next → srv'.sessions = srv.sessions →
      (∀ o, (srv'.heap o).lastActivity = (srv.heap o).lastActivity ∧
        (srv'.heap o).cancelled = (srv.heap o).cancelled) → LeaseStep srv srv' now []
  | used {o : ObjId} : o < srv.next → srv'.next = srv.next → srv'.sessions = srv.sessions →
      srv'.heap = (srv.touch o now).heap → LeaseStep srv srv' now [.used o]
  | created {sid : UInt64} : srv.sessions sid = Option.none →
      srv' = (srv.createSession sid now true).1 → LeaseStep srv srv' now [.used srv.next]
  | swept : srv' = srv.cleanupExpiredSessions now → LeaseStep srv srv' now [.checked now]

/-- A response task that is about to write `last_activity`. -/
theorem receiver_touches {s s' : State} {o : ObjId} {now : ℕ} {b : Bool} {obs : List Obs}
    {payload : List UInt8} (hpc : s.srv.receivers o = .touch payload)
    (h : step s (.receiver o now b) = some (s', obs)) :
    s' = ({ s with srv := match s.srv.sessions (s.srv.heap o).sessionId with
        | some o' => s.srv.touch o' now
        | none => s.srv }).setReceiver o (.number payload) := by
  simp only [step, stepReceiver, hpc, Option.some.injEq, Prod.mk.injEq] at h
  exact h.1.symm

theorem leaseStep_of_step {cfg : ServerConfig} {s s' : State} {e : Event} {obs tr : List Obs}
    {now : ℕ} (hi : Objects cfg s tr) (h : step s e = some (s', obs))
    (hnow : e.reads.getD now = now) : LeaseStep s.srv s'.srv now (s.leaseMarks e) := by
  by_cases hrec : ∃ o b payload, e = .receiver o now b ∧ s.srv.receivers o = .touch payload
  · obtain ⟨o, b, payload, rfl, hpc⟩ := hrec
    rw [receiver_touches hpc h]
    simp only [State.leaseMarks, hpc, State.setReceiver]
    cases hs : s.srv.sessions (s.srv.heap o).sessionId with
    | none => exact .none rfl rfl fun _ => ⟨rfl, rfl⟩
    | some o' => exact .used (hi.sessions _ o' hs).1 rfl rfl rfl
  · have hquiet : ∀ {o now' b}, e = .receiver o now' b → s.leaseMarks e = [] := by
      rintro o now' b rfl
      obtain rfl : now' = now := hnow
      simp only [State.leaseMarks]
      split
      · next payload hpc => exact absurd ⟨o, b, payload, rfl, hpc⟩ hrec
      · rfl
    have hsame : ∀ {srv : Server}, (∀ o, (srv.heap o).lastActivity = (s.srv.heap o).lastActivity ∧
        (srv.heap o).cancelled = (s.srv.heap o).cancelled) → srv.next = s.srv.next →
        srv.sessions = s.srv.sessions → s.leaseMarks e = [] →
        LeaseStep s.srv srv now (s.leaseMarks e) := by
      intro srv hheap hnext hsess hmarks
      rw [hmarks]
      exact .none hnext hsess hheap
    cases act_of_step h with
    | @createNew t k now' b' ht hpc hnone =>
        obtain rfl : now' = now := hnow
        simp only [State.leaseMarks, ht, hpc, hnone, and_self, if_true]
        exact .created hnone rfl
    | createFail ht hpc _ | createHit ht hpc hs | lookupHit ht hpc _ | lookupMiss ht hpc _
    | trackUdp ht hpc _ | track ht hpc _ | registerUdp ht hpc _ | registerTcp ht hpc _
    | forward ht hpc =>
        exact hsame (fun _ => ⟨rfl, rfl⟩) rfl rfl (by simp [State.leaseMarks, *])
    | @touch t k o now' b b' ht hpc =>
        obtain rfl : now' = now := hnow
        simp only [State.leaseMarks, ht, hpc]
        exact .used (hi.handlers t k o ht (by rw [hpc]; rfl)).1 rfl rfl rfl
    | @checkDup t k o now' b b' ht hpc _ | @checkNew t k o pc now' b b' ht hpc _ _ =>
        refine hsame (fun o' => ?_) rfl rfl (by simp [State.leaseMarks, ht, hpc])
        by_cases ho : o' = o <;> simp [State.setHandler, checkDuplicate, ho]
    | @sweep now' =>
        obtain rfl : now' = now := hnow
        exact .swept rfl
    | removePath _ =>
        exact hsame (by simp [State.setConn]) (by simp [State.setConn])
          (by simp [State.setConn]) rfl
    | @responseTouch o o' payload now' b hpc _ | @responseUntouched o payload now' b hpc _ =>
        obtain rfl : now' = now := hnow
        exact absurd ⟨o, b, payload, rfl, hpc⟩ hrec
    | @responseNumber o o' payload now' b _ _ =>
        refine hsame (fun o'' => ?_) rfl rfl (hquiet rfl)
        by_cases ho : o'' = o' <;> simp [State.setReceiver, takeResponseSeq, ho]
    | responsePaths _ _ | responseSend _ | responseOver _ =>
        exact hsame (fun _ => ⟨rfl, rfl⟩) rfl rfl (hquiet rfl)
    | @undecodable source _ data _ htcp hudp
    | @arrive source _ data sid seq payload _ htcp hudp _ =>
        refine hsame (fun _ => ⟨rfl, rfl⟩) rfl rfl ?_
        cases source with
        | udp l addr => rw [hudp l addr rfl]; rfl
        | tcp c => rw [(htcp c rfl).2]; rfl
    | _ => exact hsame (fun _ => ⟨rfl, rfl⟩) rfl rfl rfl

/-! ### What a run has done -/

/-- The sessions go by the trace, and the token of a session is cancelled when it leaves the
table. -/
structure Leased (cfg : ServerConfig) (srv : Server) (tr : List (ℕ × Mark ObjId)) : Prop where
  tracks : Tracks cfg.sessionTimeout tr (· < srv.next) (Stored srv)
    (fun o => (srv.heap o).lastActivity)
  undropped : ∀ o, ¬ Dropped tr o
  cancelled_iff : ∀ o < srv.next, (srv.heap o).cancelled = true ↔ ¬ Stored srv o

namespace Leased

variable {cfg : ServerConfig} {srv srv' : Server} {tr : List (ℕ × Mark ObjId)} {now : ℕ}

theorem undropped_snoc (hi : Leased cfg srv tr) {m : Mark ObjId} (hm : ∀ o, m ≠ .dropped o) :
    ∀ o, ¬ Dropped (tr ++ [(now, m)]) o := by
  intro o hd
  rcases dropped_snoc.mp hd with hd | hd
  · exact hi.undropped o hd
  · exact hm o hd

/-- A session is created. -/
theorem create (hi : Leased cfg srv tr) {sid : UInt64} (hnone : srv.sessions sid = none) :
    Leased cfg (srv.createSession sid now true).1 (tr ++ [(now, Mark.used srv.next)]) := by
  have hheap : ∀ o, o ≠ srv.next →
      (srv.createSession sid now true).1.heap o = srv.heap o := by
    intro o ho
    simp only [createSession, hnone, if_true]
    exact Function.update_of_ne ho _ _
  have hself : (srv.createSession sid now true).1.heap srv.next = .new srv.cfg sid now := by
    simp only [createSession, hnone, if_true]
    exact Function.update_self _ _ _
  have hnext : (srv.createSession sid now true).1.next = srv.next + 1 := by
    simp only [createSession, hnone, if_true]
  have hsess : (srv.createSession sid now true).1.sessions =
      Function.update srv.sessions sid (some srv.next) := by
    simp only [createSession, hnone, if_true]
  have hnew : Stored (srv.createSession sid now true).1 srv.next :=
    ⟨sid, by rw [hsess, Function.update_self]⟩
  have hold : ∀ o, o ≠ srv.next →
      (Stored (srv.createSession sid now true).1 o ↔ Stored srv o) := by
    intro o ho
    unfold Stored
    simp only [hsess]
    constructor
    · rintro ⟨sid', h⟩
      by_cases he : sid' = sid
      · rw [he, Function.update_self] at h
        exact absurd (Option.some.inj h).symm ho
      · rw [Function.update_of_ne he] at h
        exact ⟨sid', h⟩
    · rintro ⟨sid', h⟩
      have he : sid' ≠ sid := by
        rintro rfl
        exact absurd (hnone.symm.trans h) (by simp)
      exact ⟨sid', by rw [Function.update_of_ne he]; exact h⟩
  refine ⟨hi.tracks.use (fun o => ?_) (fun o ho => hold o (Nat.ne_of_lt ho))
    (fun _ => ⟨hnew, hi.undropped _⟩) (by rw [hself]; rfl) (fun o ho => by rw [hheap o ho]),
    hi.undropped_snoc (by simp), fun o ho => ?_⟩
  · rw [hnext, Nat.lt_succ_iff, Nat.le_iff_lt_or_eq]
  · by_cases he : o = srv.next
    · rw [he, hself]
      exact iff_of_false (by simp [TargetSession.new]) (not_not.mpr hnew)
    · rw [hheap o he, hold o he]
      rw [hnext] at ho
      exact hi.cancelled_iff o (lt_of_le_of_ne (Nat.lt_succ_iff.mp ho) he)

/-- The sweep. -/
theorem sweep (hi : Leased cfg srv tr) (hcfg : srv.cfg = cfg)
    (hid : ∀ sid o, srv.sessions sid = some o → (srv.heap o).sessionId = sid) :
    Leased cfg (srv.cleanupExpiredSessions now) (tr ++ [(now, Mark.checked now)]) := by
  have hstored : ∀ o, Stored (srv.cleanupExpiredSessions now) o ↔
      Stored srv o ∧ now ≤ (srv.heap o).lastActivity + cfg.sessionTimeout := by
    intro o
    have hlive : ∀ sid, srv.sessions sid = some o → (srv.expired now sid = false ↔
        now ≤ (srv.heap o).lastActivity + cfg.sessionTimeout) := by
      intro sid hs
      simp only [expired, hs, hcfg, decide_eq_false_iff_not]
      omega
    constructor
    · rintro ⟨sid, h⟩
      obtain ⟨hexp, hs⟩ := sessions_of_cleanupExpiredSessions h
      exact ⟨⟨sid, hs⟩, (hlive sid hs).mp hexp⟩
    · rintro ⟨⟨sid, hs⟩, hrecent⟩
      refine ⟨sid, ?_⟩
      simp only [cleanupExpiredSessions, (hlive sid hs).mpr hrecent]
      exact hs
  have hlast : ∀ o, ((srv.cleanupExpiredSessions now).heap o).lastActivity =
      (srv.heap o).lastActivity := by
    intro o
    simp only [cleanupExpiredSessions]
    split <;> rfl
  refine ⟨hi.tracks.check (le_refl now) (fun _ => Iff.rfl) (fun o _ => hstored o)
      (fun o _ => hlast o), hi.undropped_snoc (by simp), fun o ho => ?_⟩
  have hcancel : ((srv.cleanupExpiredSessions now).heap o).cancelled = true ↔
      (srv.heap o).cancelled = true ∨
        srv.sessions (srv.heap o).sessionId = some o ∧
          srv.expired now (srv.heap o).sessionId = true := by
    simp only [cleanupExpiredSessions]
    split
    · next h => exact iff_of_true rfl (Or.inr h)
    · next h => exact (or_iff_left h).symm
  rw [hcancel, hi.cancelled_iff o ho, hstored]
  by_cases hs : Stored srv o
  · obtain ⟨sid, hsid⟩ := hs
    rw [hid sid o hsid, or_iff_right (not_not.mpr ⟨sid, hsid⟩)]
    simp only [expired, hsid, hcfg, decide_eq_true_eq, true_and]
    have hst : Stored srv o := ⟨sid, hsid⟩
    rw [not_and]
    constructor
    · intro hlate _
      omega
    · intro hlate
      have hnot := hlate hst
      omega
  · exact iff_of_true (Or.inl hs) fun h => hs h.1

/-- The step lemma. -/
theorem step {marks : List (Mark ObjId)} (hi : Leased cfg srv tr) (hcfg : srv.cfg = cfg)
    (hown : ∀ sid o, srv.sessions sid = some o → Owns srv sid o)
    (hs : LeaseStep srv srv' now marks) : Leased cfg srv' (tr ++ marks.map (Prod.mk now)) := by
  cases hs with
  | none hnext hsess hheap =>
      have hstored : ∀ o, Stored srv' o ↔ Stored srv o := fun o => by
        unfold Stored
        rw [hsess]
      rw [List.map_nil, List.append_nil]
      refine ⟨hi.tracks.frame (fun o => by rw [hnext]) (fun o _ => hstored o)
        (fun o _ => (hheap o).1), hi.undropped, fun o ho => ?_⟩
      rw [(hheap o).2, hstored]
      exact hi.cancelled_iff o (hnext ▸ ho)
  | @used o hlt hnext hsess hheap =>
      have hstored : ∀ o, Stored srv' o ↔ Stored srv o := fun o => by
        unfold Stored
        rw [hsess]
      have hother : ∀ o', o' ≠ o → srv'.heap o' = srv.heap o' := by
        intro o' ho
        rw [hheap]
        exact Function.update_of_ne ho _ _
      have hself : srv'.heap o = { srv.heap o with lastActivity := now } := by
        rw [hheap]
        exact Function.update_self _ _ _
      refine ⟨hi.tracks.use (fun o' => ?_) (fun o' _ => hstored o')
        (fun h => absurd hlt h) (by rw [hself]) (fun o' ho => by rw [hother o' ho]),
        hi.undropped_snoc (by simp), fun o' ho => ?_⟩
      · rw [hnext]
        exact (or_iff_left_of_imp fun h => h ▸ hlt).symm
      · rw [hstored, ← hi.cancelled_iff o' (hnext ▸ ho)]
        by_cases he : o' = o
        · rw [he, hself]
        · rw [hother o' he]
  | created hnone h =>
      rw [h]
      exact hi.create hnone
  | swept h =>
      rw [h]
      exact hi.sweep hcfg fun sid o hs => (hown sid o hs).2

end Leased

section Runs

variable {cfg : ServerConfig} {delay : ℕ} {es : List (ℕ × Event)} {s : State × ℕ}
  {tr : List (ℕ × Mark ObjId)}

/-- The run lemma. -/
theorem leased_exec (h : (delayedLeases cfg delay).exec es = some (s, tr)) :
    Leased cfg s.1.srv tr := by
  refine (delayedLeases cfg delay).exec_induction (P := fun _ s tr => Leased cfg s.1.srv tr)
    ⟨.nil fun _ hk => absurd hk (Nat.not_lt_zero _), fun _ hd => ?_,
      fun _ ho => absurd ho (Nat.not_lt_zero _)⟩
    (fun es s tr e s' o hrun hi hs => ?_) es s tr h
  · obtain ⟨_, hm⟩ := hd
    exact absurd hm List.not_mem_nil
  · obtain ⟨-, marks, hstep, -, rfl⟩ := Machine.delayed_step.mp hs
    obtain ⟨obs, hact, rfl⟩ := Machine.observe_step.mp hstep
    obtain ⟨_, hrun'⟩ := Machine.exec_of_observe (Machine.delayed_exec hrun)
    have hobj := objects_exec hrun'
    have hreads : e.2.reads.getD (e.2.reads.getD e.1) = e.2.reads.getD e.1 := by
      cases e.2.reads <;> rfl
    exact hi.step hobj.cfg_eq hobj.sessions (leaseStep_of_step hobj hact hreads)

/-- **A session lasts while it is used.**  Take any moment of a run whose tasks act on clock readings
that are at most `delay` old.  The token of a session ever created is cancelled if and only if the
session is out of the table or the server was stopped, and it is out of the table if and only if a
sweep found the time last written to it longer ago than the timeout.  Then all its uses before were
longer ago than the timeout less the delay.  If the last sweep is not longer ago than the loop waits
between two of them, then a session in the table has been used within the timeout, that interval and
the delay. -/
theorem session_lasts_while_used (h : (delayedLeases cfg delay).exec es = some (s, tr)) :
    (∀ o < s.1.srv.next,
      (s.1.isCancelled o = true ↔ ¬ Stored s.1.srv o ∨ s.1.stopped = true) ∧
        (¬ Stored s.1.srv o ↔ Expired cfg.sessionTimeout tr o) ∧
        (delay ≤ cfg.sessionTimeout → ¬ Stored s.1.srv o →
          Lapsed (cfg.sessionTimeout - delay) tr o)) ∧
    (CheckedWithin (cleanupInterval cfg.sessionTimeout) tr s.2 → ∀ o, Stored s.1.srv o →
      ∃ u, Used tr o u ∧
        s.2 ≤ u + (cfg.sessionTimeout + cleanupInterval cfg.sessionTimeout + delay)) := by
  have hi := leased_exec h
  obtain ⟨_, hrun⟩ := Machine.exec_of_observe (Machine.delayed_exec h)
  have hobj := objects_exec hrun
  have hsorted := Machine.delayed_stamps h
  refine ⟨fun o ho => ?_, fun hcheck o hs => ?_⟩
  · have hgone : ¬ Stored s.1.srv o ↔ Expired cfg.sessionTimeout tr o := by
      rw [hi.tracks.held_iff o ho, and_iff_left (hi.undropped o), not_not]
    refine ⟨?_, hgone, fun hdelay hs => (hgone.mp hs).lapsed hdelay hsorted⟩
    rw [State.isCancelled, Bool.or_eq_true, hi.cancelled_iff o ho]
  · obtain ⟨sid, hsid⟩ := hs
    have ho : o < s.1.srv.next := (hobj.sessions sid o hsid).1
    exact hi.tracks.used_recently hsorted hcheck ho ⟨sid, hsid⟩

end Runs

/-- Session 7 is used over two listeners.  The first one has read the clock at 10, and has to wait
until 40 for the lock; the second one has written 38 in between.  Session 8 is used at 70. -/
def staleStamp : List (ℕ × Event) :=
  [(10, .udpArrives 0 demoAddr (Protocol.encodeUdp 7 0 [1])),
    (10, .handler (.listener 0) 10 true true), (10, .handler (.listener 0) 10 true true),
    (38, .udpArrives 1 demoAddr (Protocol.encodeUdp 7 1 [2])),
    (38, .handler (.listener 1) 38 true true), (39, .handler (.listener 1) 38 true true),
    (40, .handler (.listener 0) 10 true true),
    (70, .udpArrives 2 demoAddr (Protocol.encodeUdp 8 0 [3])),
    (70, .handler (.listener 2) 70 true true), (70, .handler (.listener 2) 70 true true),
    (80, .sweep 80), (81, .stop)]

/-- The sweep takes session 7 out, though it was used within the timeout, and leaves session 8,
whose token is cancelled when the server is stopped. -/
theorem session_lasts_while_used_stale_stamp :
    ∃ s tr, (delayedLeases demoConfig 30).exec staleStamp = some (s, tr) ∧
      (¬ Stored s.1.srv 0 ∧ Used tr 0 38 ∧ Stored s.1.srv 1) ∧
      (∀ o < s.1.srv.next,
        (s.1.isCancelled o = true ↔ ¬ Stored s.1.srv o ∨ s.1.stopped = true) ∧
          (¬ Stored s.1.srv o ↔ Expired demoConfig.sessionTimeout tr o) ∧
          (30 ≤ demoConfig.sessionTimeout → ¬ Stored s.1.srv o →
            Lapsed (demoConfig.sessionTimeout - 30) tr o)) ∧
      ∀ o, Stored s.1.srv o → ∃ u, Used tr o u ∧
        s.2 ≤ u + (demoConfig.sessionTimeout + cleanupInterval demoConfig.sessionTimeout + 30) := by
  have hview : ((delayedLeases demoConfig 30).exec staleStamp).map
      (fun r => ((r.1.1.srv.sessions 8, r.1.1.srv.next, r.1.2), r.2)) =
        some ((some 1, 2, 81),
          [(10, .used 0), (38, .used 0), (10, .used 0), (70, .used 1), (80, .checked 80)]) := by
    decide
  obtain ⟨⟨s, tr⟩, hrun, hv⟩ := Option.map_eq_some_iff.mp hview
  simp only [Prod.mk.injEq] at hv
  obtain ⟨⟨h8, hnext, hnow⟩, htr⟩ := hv
  obtain ⟨hends, hrecent⟩ := session_lasts_while_used hrun
  have hexpired : Expired demoConfig.sessionTimeout tr 0 :=
    ⟨tr.take 4, [], 80, 80, 10, by rw [htr]; rfl, by rw [htr]; decide, by decide⟩
  have hcheck : CheckedWithin (cleanupInterval demoConfig.sessionTimeout) tr s.2 := by
    rw [hnow]
    exact Or.inl (by decide)
  refine ⟨s, tr, hrun, ⟨(hends 0 (by rw [hnext]; decide)).2.1.mpr hexpired, ?_, 8, h8⟩, hends,
    hrecent hcheck⟩
  rw [Used, htr]
  decide

end Fproxy.Server
