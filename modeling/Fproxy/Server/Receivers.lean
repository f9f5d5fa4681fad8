import Fproxy.Server.Machine

/-!
# Every live session has a receiver

`get_or_create_session` spawns a response task for each session it stores, and the session is
served as long as that task runs.  The task returns when its session is cancelled, which happens
only after the session has left the table, and on any error of `recv` on the target socket, in
which case the session stays.

* `Served` — the inductive invariant: the table holds the objects it created, uncancelled, and
  each of them has a running task.
* `receivers_alive_iff` — in a run, every session in the table has a running response task at
  every moment if and only if no `recv` fails on the socket of a session in the table.
-/

namespace Fproxy.Server

open Fproxy.Runs

/-- Every session in the table has a running response task, unless the server was stopped. -/
def ReceiverAlive (s : State) : Prop :=
  s.stopped = false → ∀ sid o, s.srv.sessions sid = some o → (s.srv.receivers o).Running

/-- The step is not an error of `recv` on the target socket of a session in the table. -/
def NoLiveRecvError (s : State) : Event → Prop
  | .targetFails o => s.stopped = true ∨ s.srv.sessions (s.srv.heap o).sessionId ≠ some o
  | _ => True

/-- The table is consistent with the heap, and its sessions are served. -/
structure Served (srv : Server) (stopped : Bool) : Prop where
  allocated : ∀ sid o, srv.sessions sid = some o → o < srv.next
  keyed : ∀ sid o, srv.sessions sid = some o → (srv.heap o).sessionId = sid
  uncancelled : ∀ sid o, srv.sessions sid = some o → (srv.heap o).cancelled = false
  running : stopped = false → ∀ sid o, srv.sessions sid = some o → (srv.receivers o).Running

namespace Served

variable {srv : Server} {stopped : Bool}

/-- Changing an object but not its identity. -/
theorem updateObject (h : Served srv stopped) {o : ObjId} {t : TargetSession}
    (hid : t.sessionId = (srv.heap o).sessionId) (hc : t.cancelled = (srv.heap o).cancelled) :
    Served { srv with heap := Function.update srv.heap o t } stopped := by
  refine ⟨h.allocated, fun sid o' hs => ?_, fun sid o' hs => ?_, h.running⟩
  · show (Function.update srv.heap o t o').sessionId = sid
    by_cases ho : o' = o
    · rw [ho, Function.update_self, hid, ← ho]
      exact h.keyed sid o' hs
    · rw [Function.update_of_ne ho]
      exact h.keyed sid o' hs
  · show (Function.update srv.heap o t o').cancelled = false
    by_cases ho : o' = o
    · rw [ho, Function.update_self, hc, ← ho]
      exact h.uncancelled sid o' hs
    · rw [Function.update_of_ne ho]
      exact h.uncancelled sid o' hs

/-- Moving a response task, except off a session in the table. -/
theorem setReceiver (h : Served srv stopped) {o : ObjId} {pc : ReceiverPc}
    (hpc : stopped = false → ∀ sid, srv.sessions sid = some o → pc.Running) :
    Served { srv with receivers := Function.update srv.receivers o pc } stopped := by
  refine ⟨h.allocated, h.keyed, h.uncancelled, fun hs sid o' ho' => ?_⟩
  show (Function.update srv.receivers o pc o').Running
  by_cases ho : o' = o
  · rw [ho, Function.update_self]
    exact hpc hs sid (ho ▸ ho')
  · rw [Function.update_of_ne ho]
    exact h.running hs sid o' ho'

/-- A new session comes with its task. -/
theorem createSession (h : Served srv stopped) {sid : UInt64} {now : ℕ}
    (hnone : srv.sessions sid = none) : Served (srv.createSession sid now true).1 stopped := by
  have hsess : ∀ sid' o, (srv.createSession sid now true).1.sessions sid' = some o →
      (sid' = sid ∧ o = srv.next) ∨ (srv.sessions sid' = some o ∧ o ≠ srv.next) := by
    intro sid' o hs
    simp only [Server.createSession, hnone, if_true] at hs
    by_cases he : sid' = sid
    · rw [he, Function.update_self] at hs
      exact Or.inl ⟨he, (Option.some.inj hs).symm⟩
    · rw [Function.update_of_ne he] at hs
      exact Or.inr ⟨hs, Nat.ne_of_lt (h.allocated sid' o hs)⟩
  refine ⟨fun sid' o hs => ?_, fun sid' o hs => ?_, fun sid' o hs => ?_, fun hst sid' o hs => ?_⟩ <;>
    simp only [Server.createSession, hnone, if_true] <;>
    rcases hsess sid' o hs with ⟨rfl, rfl⟩ | ⟨hold, hne⟩
  · exact Nat.lt_succ_self _
  · exact Nat.lt_succ_of_lt (h.allocated sid' o hold)
  · rw [Function.update_self]
    rfl
  · rw [Function.update_of_ne hne]
    exact h.keyed sid' o hold
  · rw [Function.update_self]
    rfl
  · rw [Function.update_of_ne hne]
    exact h.uncancelled sid' o hold
  · rw [Function.update_self]
    trivial
  · rw [Function.update_of_ne hne]
    exact h.running hst sid' o hold

/-- The sweep cancels the objects it removes and no other. -/
theorem cleanupExpiredSessions (h : Served srv stopped) (now : ℕ) :
    Served (srv.cleanupExpiredSessions now) stopped := by
  have hsess : ∀ sid o, (srv.cleanupExpiredSessions now).sessions sid = some o →
      srv.expired now sid = false ∧ srv.sessions sid = some o := by
    intro sid o hs
    simp only [Server.cleanupExpiredSessions] at hs
    split at hs
    · exact absurd hs (by simp)
    · next he => exact ⟨by simpa using he, hs⟩
  have hheap : ∀ sid o, (srv.cleanupExpiredSessions now).sessions sid = some o →
      (srv.cleanupExpiredSessions now).heap o = srv.heap o := by
    intro sid o hs
    obtain ⟨hlive, hs'⟩ := hsess sid o hs
    simp only [Server.cleanupExpiredSessions]
    rw [h.keyed sid o hs', hlive]
    simp
  refine ⟨fun sid o hs => h.allocated sid o (hsess sid o hs).2, fun sid o hs => ?_,
    fun sid o hs => ?_, fun hst sid o hs => h.running hst sid o (hsess sid o hs).2⟩
  · rw [hheap sid o hs]
    exact h.keyed sid o (hsess sid o hs).2
  · rw [hheap sid o hs]
    exact h.uncancelled sid o (hsess sid o hs).2

end Served

/-- A response path leaves the sessions and the tasks alone. -/
theorem Served.removeTcpPath {srv : Server} {stopped : Bool} (h : Served srv stopped)
    (sid : Option UInt64) (c : ConnId) : Served (srv.removeTcpPath sid c) stopped := by
  unfold Server.removeTcpPath
  split
  · exact h
  · split
    · exact h
    · exact ⟨h.allocated, h.keyed, h.uncancelled, h.running⟩

/-- The step lemma: every move without such an error keeps the invariant. -/
theorem Served.act {s s' : State} {e : Event} {obs : List Obs} (h : Served s.srv s.stopped)
    (hc : NoLiveRecvError s e) (ha : Act s e s' obs) : Served s'.srv s'.stopped := by
  cases ha with
  | undecodable _ _ _ => exact h
  | arrive _ _ _ _ => exact h
  | accept _ => exact h
  | lookupHit _ _ _ => exact h
  | lookupMiss _ _ _ => exact h
  | createHit _ _ _ => exact h
  | createFail _ _ _ => exact h
  | createNew _ _ hnone => exact h.createSession hnone
  | touch _ _ => exact h.updateObject rfl rfl
  | checkDup _ _ _ => exact h.updateObject rfl rfl
  | checkNew _ _ _ _ => exact h.updateObject rfl rfl
  | trackUdp _ _ _ => exact h
  | track _ _ _ => exact ⟨h.allocated, h.keyed, h.uncancelled, h.running⟩
  | registerUdp _ _ _ => exact ⟨h.allocated, h.keyed, h.uncancelled, h.running⟩
  | registerTcp _ _ _ => exact ⟨h.allocated, h.keyed, h.uncancelled, h.running⟩
  | forward _ _ => exact h
  | connEnds _ _ => exact h
  | untrack _ => exact ⟨h.allocated, h.keyed, h.uncancelled, h.running⟩
  | removePath _ => exact h.removeTcpPath _ _
  | targetReads _ => exact h.setReceiver fun _ _ _ => trivial
  | @targetFails o _ =>
      refine h.setReceiver fun hst sid hs => ?_
      rcases hc with hstop | hgone
      · rw [hst] at hstop
        exact absurd hstop (by simp)
      · rw [h.keyed sid o hs] at hgone
        exact absurd hs hgone
  | @receiverCancelled o _ hcancel =>
      refine h.setReceiver fun hst sid hs => ?_
      rcases hcancel with hcan | hstop
      · rw [h.uncancelled sid o hs] at hcan
        exact absurd hcan (by simp)
      · rw [hst] at hstop
        exact absurd hstop (by simp)
  | @responseTouch o o' payload now b _ _ =>
      have ht : Served (s.srv.touch o' now) s.stopped := h.updateObject rfl rfl
      exact ht.setReceiver fun _ _ _ => trivial
  | responseUntouched _ _ => exact h.setReceiver fun _ _ _ => trivial
  | @responseNumber o o' payload now b _ _ =>
      have ht : Served (s.srv.takeResponseSeq o').2 s.stopped := h.updateObject rfl rfl
      exact ht.setReceiver fun _ _ _ => trivial
  | responsePaths _ _ => exact h.setReceiver fun _ _ _ => trivial
  | responseSend _ => exact h.setReceiver fun _ _ _ => trivial
  | responseOver _ => exact h.setReceiver fun _ _ _ => trivial
  | sweep => exact h.cleanupExpiredSessions _
  | stop => exact ⟨h.allocated, h.keyed, h.uncancelled, fun hst => absurd hst (by simp)⟩

theorem served_init (cfg : ServerConfig) : Served (machine cfg).init.srv false :=
  ⟨fun _ _ h => absurd h (by simp [machine, new]), fun _ _ h => absurd h (by simp [machine, new]),
    fun _ _ h => absurd h (by simp [machine, new]),
    fun _ _ _ h => absurd h (by simp [machine, new])⟩

/-- **Exactly when every live session can still receive.**  Along a run every session in the
table has a running response task at every moment if and only if no step is an error of `recv` on
the target socket of a session in the table of a running server. -/
theorem receivers_alive_iff (cfg : ServerConfig) (es : List Event) {s : State} {tr : List Obs}
    (hrun : (machine cfg).exec es = some (s, tr)) :
    (machine cfg).Always (fun s _ => ReceiverAlive s) es ↔
      (machine cfg).Each (fun s _ e => NoLiveRecvError s e) es := by
  constructor
  · intro hP
    refine Machine.each_of_always (fun es s tr e s' o _ hstep hs' => ?_) hrun hP
    cases e with
    | targetFails o' =>
        -- the error has just ended the task of this object
        have hdone : s' = s.setReceiver o' .done := by
          simp only [machine, step] at hstep
          split at hstep
          · exact (Prod.mk.inj (Option.some.inj hstep)).1.symm
          · exact absurd hstep (by simp)
        by_contra hbad
        obtain ⟨hst, hin⟩ := not_or.mp hbad
        have hst' : s.stopped = false := by simpa using hst
        rw [hdone] at hs'
        have hrun : (Function.update s.srv.receivers o' .done o').Running :=
          hs' hst' _ o' (not_not.mp hin)
        rw [Function.update_self] at hrun
        exact hrun
    | _ => trivial
  · intro hC pre hpre s₀ tr₀ h₀
    have hserved : Served s₀.srv s₀.stopped :=
      Machine.invariant_of_each (I := fun s _ => Served s.srv s.stopped) (served_init cfg)
        (fun _ _ _ _ _ hi hc hs => hi.act hc (act_of_machine hs)) (hC.of_isPrefix hpre) h₀
    exact fun hst => hserved.running hst

/-- One packet of session 7 creates its session on the server. -/
def createSessionSeven : List Event :=
  [.udpArrives 0 demoAddr (Protocol.encodeUdp 7 0 [1]),
    .handler (.listener 0) 10 true true, .handler (.listener 0) 10 true true]

/-- The event is no error of a target socket. -/
def Event.noTargetError : Event → Bool
  | .targetFails _ => false
  | _ => true

/-- The session is served as long as nothing goes wrong. -/
theorem receivers_alive_after_creation :
    (∃ s tr, (machine demoConfig).exec createSessionSeven = some (s, tr) ∧
      s.srv.sessions 7 = some 0) ∧
    (machine demoConfig).Always (fun s _ => ReceiverAlive s) createSessionSeven := by
  have hview : ((machine demoConfig).exec createSessionSeven).map
      (fun r => r.1.srv.sessions 7) = some (some 0) := by decide
  obtain ⟨⟨s, tr⟩, hrun, hstored⟩ := Option.map_eq_some_iff.mp hview
  have hcheck : ∀ (s : State) (_ : List Obs) (e : Event), e.noTargetError = true →
      NoLiveRecvError s e := by
    intro s _ e he
    cases e with
    | targetFails o => exact absurd he (by simp [Event.noTargetError])
    | _ => trivial
  exact ⟨⟨s, tr, hrun, hstored⟩, (receivers_alive_iff demoConfig createSessionSeven hrun).mpr
    (Machine.each_of_check hcheck (by decide))⟩

/-- One transient `recv` error ends the task of session 7, which stays in the table. -/
theorem recv_error_leaves_session_deaf :
    ∃ s tr, (machine demoConfig).exec (createSessionSeven ++ [.targetFails 0]) = some (s, tr) ∧
      s.srv.sessions 7 = some 0 ∧ ¬ ReceiverAlive s := by
  have hview : ((machine demoConfig).exec (createSessionSeven ++ [.targetFails 0])).map
      (fun r => (r.1.stopped, r.1.srv.sessions 7, r.1.srv.receivers 0)) =
        some (false, some 0, .done) := by decide
  obtain ⟨⟨s, tr⟩, hrun, hv⟩ := Option.map_eq_some_iff.mp hview
  simp only [Prod.mk.injEq] at hv
  obtain ⟨hst, hs, hr⟩ := hv
  refine ⟨s, tr, hrun, hs, fun halive => ?_⟩
  have hrunning := halive hst 7 0 hs
  rw [hr] at hrunning
  exact hrunning

end Fproxy.Server
