import Fproxy.Server.Machine

/-!
# The session objects of the server and their windows

Handlers and tables hold references to session objects.  Every reference is to an object that was
created for the session id it is used under, and the window of every object is the one that its
`is_duplicate` calls, taken from the trace, leave behind.

* `checks tr o` — the calls of `is_duplicate` on the window of `o`, with the verdicts.
* `Objects` — the invariant; `objects_exec` — it holds after every run.
-/

namespace Fproxy.Server

open Fproxy.Runs Fproxy.DedupWindow

/-- The calls of `is_duplicate` on the window of an object, oldest first; `true` when the packet
was let through. -/
def checks (tr : List Obs) (o : ObjId) : List (UInt32 × Bool) :=
  tr.filterMap fun
    | .checked o' seq _ dup => if o' = o then some (seq, !dup) else none
    | _ => none

@[simp] theorem checks_append (tr tr' : List Obs) (o : ObjId) :
    checks (tr ++ tr') o = checks tr o ++ checks tr' o := List.filterMap_append

/-- The object a handler works on. -/
def HandlerPc.obj : HandlerPc → Option ObjId
  | .lookup => none
  | .create => none
  | .touch o => some o
  | .check o => some o
  | .track o => some o
  | .register o => some o
  | .forward o => some o

theorem handlers_setHandler {s : State} {t t' : Task} {h' : Option Handler} {h : Handler}
    (ht : (s.setHandler t h').handlers t' = some h) :
    t' = t ∧ h' = some h ∨ s.handlers t' = some h := by
  by_cases he : t' = t
  · rw [he] at ht
    exact Or.inl ⟨he, by simpa [State.setHandler] using ht⟩
  · exact Or.inr (by simpa [State.setHandler, Function.update_of_ne he] using ht)

/-- A reference to an object created for a session id. -/
def Owns (srv : Server) (sid : UInt64) (o : ObjId) : Prop :=
  o < srv.next ∧ (srv.heap o).sessionId = sid

/-- What the references and the windows satisfy along every run. -/
structure Objects (cfg : ServerConfig) (s : State) (tr : List Obs) : Prop where
  cfg_eq : s.srv.cfg = cfg
  sessions : ∀ sid o, s.srv.sessions sid = some o → Owns s.srv sid o
  handlers : ∀ t h o, s.handlers t = some h → h.pc.obj = some o → Owns s.srv h.sessionId o
  fresh : ∀ o, s.srv.next ≤ o → checks tr o = []
  tracks : ∀ o, Tracks (s.srv.heap o).dedupWindow (checks tr o)
  size : ∀ o, (s.srv.heap o).dedupWindow.size = cfg.dedupWindow

namespace Objects

variable {cfg : ServerConfig} {s s' : State} {tr obs : List Obs}

/-- Frame rule: a move that creates no object and calls no window. -/
theorem frame (hi : Objects cfg s tr) (hcfg : s'.srv.cfg = s.srv.cfg)
    (hnext : s'.srv.next = s.srv.next)
    (hid : ∀ o, (s'.srv.heap o).sessionId = (s.srv.heap o).sessionId)
    (hwin : ∀ o, (s'.srv.heap o).dedupWindow = (s.srv.heap o).dedupWindow)
    (hobs : ∀ o, checks obs o = [])
    (hsess : ∀ sid o, s'.srv.sessions sid = some o → s.srv.sessions sid = some o)
    (hhand : ∀ t h, s'.handlers t = some h → s.handlers t = some h ∨
      ∀ o, h.pc.obj = some o → Owns s.srv h.sessionId o) : Objects cfg s' (tr ++ obs) := by
  have howns : ∀ sid o, Owns s.srv sid o → Owns s'.srv sid o := fun sid o h =>
    ⟨hnext ▸ h.1, (hid o).trans h.2⟩
  refine ⟨hcfg.trans hi.cfg_eq, fun sid o h => howns sid o (hi.sessions sid o (hsess sid o h)),
    fun t h o ht ho => ?_, fun o h => ?_, fun o => ?_, fun o => ?_⟩
  · rcases hhand t h ht with hold | hnew
    · exact howns _ o (hi.handlers t h o hold ho)
    · exact howns _ o (hnew o ho)
  · rw [checks_append, hi.fresh o (hnext ▸ h), hobs, List.append_nil]
  · rw [checks_append, hobs, List.append_nil, hwin]
    exact hi.tracks o
  · rw [hwin]
    exact hi.size o

/-- Frame rule for the tasks that handle packets: the handler moves on within its object. -/
theorem frameHandler (hi : Objects cfg s tr) {t : Task} {h' : Option Handler} {srv : Server}
    (hcfg : srv.cfg = s.srv.cfg) (hnext : srv.next = s.srv.next)
    (hid : ∀ o, (srv.heap o).sessionId = (s.srv.heap o).sessionId)
    (hwin : ∀ o, (srv.heap o).dedupWindow = (s.srv.heap o).dedupWindow)
    (hsess : srv.sessions = s.srv.sessions) (hobs : ∀ o, checks obs o = [])
    (hh : ∀ h o, h' = some h → h.pc.obj = some o → Owns s.srv h.sessionId o) :
    Objects cfg ({ s with srv := srv }.setHandler t h') (tr ++ obs) := by
  refine hi.frame hcfg hnext hid hwin hobs (fun sid o h => ?_) (fun t' h ht => ?_)
  · rwa [← hsess]
  · rcases handlers_setHandler ht with ⟨_, hset⟩ | hold
    · exact Or.inr fun o ho => hh h o hset ho
    · exact Or.inl hold

/-- A fresh object for a session id. -/
theorem create (hi : Objects cfg s tr) {t : Task} {h : Handler} {now : ℕ}
    (hnone : s.srv.sessions h.sessionId = none) :
    Objects cfg ({ s with srv := (s.srv.createSession h.sessionId now true).1 }.setHandler t
      (some { h with pc := .touch s.srv.next })) (tr ++ []) := by
  have hheap : ∀ o, o ≠ s.srv.next →
      (s.srv.createSession h.sessionId now true).1.heap o = s.srv.heap o := by
    intro o ho
    simp only [createSession, hnone, if_true]
    exact Function.update_of_ne ho _ _
  have hself : (s.srv.createSession h.sessionId now true).1.heap s.srv.next =
      TargetSession.new s.srv.cfg h.sessionId now := by
    simp only [createSession, hnone, if_true]
    exact Function.update_self _ _ _
  have hnext : (s.srv.createSession h.sessionId now true).1.next = s.srv.next + 1 := by
    simp only [createSession, hnone, if_true]
  have hnew : Owns (s.srv.createSession h.sessionId now true).1 h.sessionId s.srv.next :=
    ⟨by rw [hnext]; exact Nat.lt_succ_self _, by rw [hself]; rfl⟩
  have howns : ∀ sid o, Owns s.srv sid o →
      Owns (s.srv.createSession h.sessionId now true).1 sid o := fun sid o ho =>
    ⟨by rw [hnext]; exact Nat.lt_succ_of_lt ho.1, by rw [hheap o (Nat.ne_of_lt ho.1)]; exact ho.2⟩
  rw [List.append_nil]
  refine ⟨?_, fun sid o hs => ?_, fun t' h' o ht ho => ?_, fun o ho => ?_, fun o => ?_,
    fun o => ?_⟩
  · show (s.srv.createSession h.sessionId now true).1.cfg = cfg
    simp only [createSession, hnone, if_true]
    exact hi.cfg_eq
  · have hs : Function.update s.srv.sessions h.sessionId (some s.srv.next) sid = some o := by
      simpa [State.setHandler, createSession, hnone] using hs
    by_cases he : sid = h.sessionId
    · rw [he, Function.update_self, Option.some.injEq] at hs
      rw [he, ← hs]
      exact hnew
    · rw [Function.update_of_ne he] at hs
      exact howns sid o (hi.sessions sid o hs)
  · rcases handlers_setHandler ht with ⟨_, hset⟩ | hold
    · rw [← Option.some.inj hset] at ho ⊢
      rw [← Option.some.inj ho]
      exact hnew
    · exact howns _ o (hi.handlers t' h' o hold ho)
  · have ho : s.srv.next + 1 ≤ o := by rwa [← hnext]
    exact hi.fresh o (Nat.le_of_succ_le ho)
  · show Tracks ((s.srv.createSession h.sessionId now true).1.heap o).dedupWindow _
    by_cases he : o = s.srv.next
    · rw [he, hself, hi.fresh s.srv.next (le_refl _)]
      exact tracks_new s.srv.cfg.dedupWindow_pos
    · rw [hheap o he]
      exact hi.tracks o
  · show ((s.srv.createSession h.sessionId now true).1.heap o).dedupWindow.size = cfg.dedupWindow
    by_cases he : o = s.srv.next
    · rw [he, hself, hi.cfg_eq]
      rfl
    · rw [hheap o he]
      exact hi.size o

/-- One call of `is_duplicate`. -/
theorem check (hi : Objects cfg s tr) {t : Task} {h : Handler} {o : ObjId} {dup : Bool}
    {h' : Option Handler} (ht : s.handlers t = some h) (hpc : h.pc = .check o)
    (hdup : (s.srv.checkDuplicate o h.seq).1 = dup)
    (hh : ∀ h₁ o₁, h' = some h₁ → h₁.pc.obj = some o₁ → Owns s.srv h₁.sessionId o₁) :
    Objects cfg ({ s with srv := (s.srv.checkDuplicate o h.seq).2 }.setHandler t h')
      (tr ++ [Obs.checked o h.seq h.payload dup]) := by
  have hown : Owns s.srv h.sessionId o := hi.handlers t h o ht (by rw [hpc]; rfl)
  have howns : ∀ sid o', Owns s.srv sid o' → Owns (s.srv.checkDuplicate o h.seq).2 sid o' :=
    fun sid o' ho => ⟨ho.1, by rw [checkDuplicate_sessionId]; exact ho.2⟩
  refine ⟨hi.cfg_eq, fun sid o' hs => howns sid o' (hi.sessions sid o' hs),
    fun t' h₁ o₁ ht' ho => ?_, fun o' ho => ?_, fun o' => ?_, fun o' => ?_⟩
  · rcases handlers_setHandler ht' with ⟨_, hset⟩ | hold
    · exact howns _ o₁ (hh h₁ o₁ hset ho)
    · exact howns _ o₁ (hi.handlers t' h₁ o₁ hold ho)
  · have hne : o ≠ o' := fun he => absurd hown.1 (by rw [he]; exact Nat.not_lt.mpr ho)
    rw [checks_append, hi.fresh o' ho]
    simp [checks, hne]
  · show Tracks ((s.srv.checkDuplicate o h.seq).2.heap o').dedupWindow _
    rw [checkDuplicate_dedupWindow, checks_append]
    by_cases he : o' = o
    · subst he
      have hverdict : ((s.srv.heap o').dedupWindow.isDuplicate h.seq).1 = dup := hdup
      have hstep := (hi.tracks o').isDuplicate h.seq
      rw [hverdict] at hstep
      simpa [checks] using hstep
    · have hne : o ≠ o' := fun h => he h.symm
      simpa [checks, he, hne] using hi.tracks o'
  · show ((s.srv.checkDuplicate o h.seq).2.heap o').dedupWindow.size = _
    rw [checkDuplicate_dedupWindow]
    by_cases he : o' = o
    · rw [if_pos he, isDuplicate_size]
      exact hi.size o
    · rw [if_neg he]
      exact hi.size o'

/-- The step lemma. -/
theorem act {e : Event} (hi : Objects cfg s tr) (ha : Act s e s' obs) :
    Objects cfg s' (tr ++ obs) := by
  -- a handler that keeps its object keeps its reference
  have hkeep : ∀ {t : Task} {h : Handler} {o : ObjId} {pc : HandlerPc}, s.handlers t = some h →
      h.pc.obj = some o → pc.obj = some o → ∀ h₁ o₁, some { h with pc := pc } = some h₁ →
        h₁.pc.obj = some o₁ → Owns s.srv h₁.sessionId o₁ := by
    intro t h o pc ht ho hpc h₁ o₁ hset ho₁
    rw [← Option.some.inj hset] at ho₁ ⊢
    rw [← Option.some.inj (hpc.symm.trans ho₁)]
    exact hi.handlers t h o ht ho
  -- a handler that has just found its session
  have hfound : ∀ {h : Handler} {o : ObjId}, s.srv.sessions h.sessionId = some o →
      ∀ h₁ o₁, some { h with pc := .touch o } = some h₁ → h₁.pc.obj = some o₁ →
        Owns s.srv h₁.sessionId o₁ := by
    intro h o hs h₁ o₁ hset ho₁
    rw [← Option.some.inj hset] at ho₁ ⊢
    rw [← Option.some.inj ho₁]
    exact hi.sessions h.sessionId o hs
  -- a handler that has no session yet
  have hfree : ∀ {h : Handler}, h.pc.obj = none → ∀ h₁ o₁, some h = some h₁ →
      h₁.pc.obj = some o₁ → Owns s.srv h₁.sessionId o₁ := by
    intro h hpc h₁ o₁ hset ho₁
    rw [← Option.some.inj hset] at ho₁
    exact absurd (hpc.symm.trans ho₁) (by simp)
  have hnone : ∀ h₁ o₁, (none : Option Handler) = some h₁ → h₁.pc.obj = some o₁ →
      Owns s.srv h₁.sessionId o₁ := fun _ _ h => absurd h (by simp)
  cases ha with
  | undecodable _ _ _ => simpa using hi
  | arrive _ _ _ _ =>
      exact hi.frameHandler rfl rfl (fun _ => rfl) (fun _ => rfl) rfl (fun _ => rfl) (hfree rfl)
  | lookupHit ht _ hs =>
      exact hi.frameHandler rfl rfl (fun _ => rfl) (fun _ => rfl) rfl (fun _ => rfl) (hfound hs)
  | lookupMiss _ _ _ =>
      exact hi.frameHandler rfl rfl (fun _ => rfl) (fun _ => rfl) rfl (fun _ => rfl) (hfree rfl)
  | createHit ht _ hs =>
      exact hi.frameHandler rfl rfl (fun _ => rfl) (fun _ => rfl) rfl (fun _ => rfl) (hfound hs)
  | createFail _ _ _ =>
      exact hi.frameHandler rfl rfl (fun _ => rfl) (fun _ => rfl) rfl (fun _ => rfl) hnone
  | createNew _ _ hs => exact hi.create hs
  | touch ht hpc =>
      exact hi.frameHandler rfl rfl (touch_sessionId _ _ · _) (touch_dedupWindow _ _ · _) rfl
        (fun _ => rfl) (hkeep ht (by rw [hpc]; rfl) rfl)
  | checkDup ht hpc hd => exact hi.check ht hpc hd hnone
  | @checkNew t h o pc now b b' ht hpc hd hnext =>
      refine hi.check ht hpc hd (hkeep ht (o := o) (by rw [hpc]; rfl) ?_)
      rcases hnext with ⟨rfl, _⟩ | ⟨rfl, _⟩ <;> rfl
  | trackUdp ht hpc _ =>
      exact hi.frameHandler rfl rfl (fun _ => rfl) (fun _ => rfl) rfl (fun _ => rfl)
        (hkeep ht (by rw [hpc]; rfl) rfl)
  | track ht hpc _ =>
      exact hi.frameHandler rfl rfl (fun _ => rfl) (fun _ => rfl) rfl (fun _ => rfl)
        (hkeep ht (by rw [hpc]; rfl) rfl)
  | registerUdp ht hpc _ =>
      exact hi.frameHandler rfl rfl (fun _ => rfl) (fun _ => rfl) rfl (fun _ => rfl)
        (hkeep ht (by rw [hpc]; rfl) rfl)
  | registerTcp ht hpc _ =>
      exact hi.frameHandler rfl rfl (fun _ => rfl) (fun _ => rfl) rfl (fun _ => rfl)
        (hkeep ht (by rw [hpc]; rfl) rfl)
  | forward _ _ =>
      exact hi.frameHandler rfl rfl (fun _ => rfl) (fun _ => rfl) rfl (fun _ => rfl) hnone
  | @removePath c sid _ =>
      refine hi.frame (removeTcpPath_cfg _ _ _) (removeTcpPath_next _ _ _) (fun o => ?_)
        (fun o => ?_) (fun _ => rfl) (fun sid' o hs => ?_) (fun _ _ h => Or.inl h)
      · simp [State.setConn]
      · simp [State.setConn]
      · simpa [State.setConn] using hs
  | responseTouch _ _ =>
      exact hi.frame rfl rfl (touch_sessionId _ _ · _) (touch_dedupWindow _ _ · _) (fun _ => rfl)
        (fun _ _ h => h) (fun _ _ h => Or.inl h)
  | responseNumber _ _ =>
      exact hi.frame rfl rfl (takeResponseSeq_sessionId _ _) (takeResponseSeq_dedupWindow _ _)
        (fun _ => rfl) (fun _ _ h => h) (fun _ _ h => Or.inl h)
  | @responseSend o payload seq p ps now b _ =>
      refine hi.frame rfl rfl (fun _ => rfl) (fun _ => rfl) (fun o' => ?_) (fun _ _ h => h)
        (fun _ _ h => Or.inl h)
      cases b <;> cases p <;> rfl
  | sweep =>
      exact hi.frame rfl rfl (cleanupExpiredSessions_sessionId _ _)
        (cleanupExpiredSessions_dedupWindow _ _) (fun _ => rfl)
        (fun _ _ h => (sessions_of_cleanupExpiredSessions h).2) (fun _ _ h => Or.inl h)
  | _ =>
      exact hi.frame rfl rfl (fun _ => rfl) (fun _ => rfl) (fun _ => rfl) (fun _ _ h => h)
        (fun _ _ h => Or.inl h)

end Objects

/-- An object keeps the session id it was created for. -/
theorem Owns.act {s s' : State} {e : Event} {obs : List Obs} {sid : UInt64} {o : ObjId}
    (h : Owns s.srv sid o) (ha : Act s e s' obs) : Owns s'.srv sid o := by
  have hsame : s'.srv.next = s.srv.next →
      (s'.srv.heap o).sessionId = (s.srv.heap o).sessionId → Owns s'.srv sid o :=
    fun hn hid => ⟨hn ▸ h.1, hid.trans h.2⟩
  cases ha with
  | createNew _ _ hnone =>
      refine ⟨?_, ?_⟩ <;> simp only [State.setHandler, createSession, hnone, if_true]
      · exact Nat.lt_succ_of_lt h.1
      · rw [Function.update_of_ne (Nat.ne_of_lt h.1)]
        exact h.2
  | touch _ _ => exact hsame rfl (touch_sessionId _ _ _ _)
  | checkDup _ _ _ => exact hsame rfl (checkDuplicate_sessionId _ _ _ _)
  | checkNew _ _ _ _ => exact hsame rfl (checkDuplicate_sessionId _ _ _ _)
  | removePath _ => exact hsame (by simp [State.setConn]) (by simp [State.setConn])
  | responseTouch _ _ => exact hsame rfl (touch_sessionId _ _ _ _)
  | responseNumber _ _ => exact hsame rfl (takeResponseSeq_sessionId _ _ _)
  | sweep => exact hsame rfl (cleanupExpiredSessions_sessionId _ _ _)
  | _ => exact hsame rfl rfl

/-- The run lemma. -/
theorem objects_exec {cfg : ServerConfig} {es : List Event} {s : State} {tr : List Obs}
    (hrun : (machine cfg).exec es = some (s, tr)) : Objects cfg s tr :=
  Machine.invariant (I := Objects cfg) _
    ⟨rfl, fun _ _ h => absurd h (by simp [machine, new]),
      fun _ _ _ h => absurd h (by simp [machine]), fun _ _ => rfl,
      fun _ => tracks_new cfg.dedupWindow_pos, fun _ => rfl⟩
    (fun _ _ _ _ _ hi hs => hi.act (act_of_machine hs)) hrun

end Fproxy.Server
