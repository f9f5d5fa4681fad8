import Fproxy.Server.Objects
import Fproxy.Server.TcpPaths

/-!
# Every path list belongs to a session

The path list of a session is removed with the session, by the sweep that finds it expired.  A
packet handler holds on to the session object it found, and registers its path under the session
id whether or not the session is still in the table: if a sweep comes between the two, the list
outlives every session.

* `Owned` — the keys of `client_paths` are keys of `sessions`.
* `RegistersLive` — the condition on a step: a path is registered only for a session in the table.
* `owned_iff` — the lists are owned at every moment of a run exactly if every registration meets
  the condition; `no_orphaned_lists` — then they are owned whenever no handler is at work.
* `sweep_orphans_list` — a sweep between the lookup and the registration.
-/

namespace Fproxy.Server

open Fproxy.Runs

/-- Every session id that is a key of `client_paths` is a key of `sessions`. -/
def Owned (srv : Server) : Prop :=
  ∀ sid, srv.clientPaths sid ≠ none → srv.sessions sid ≠ none

/-- No handler is between its `get_or_create_session` and its return. -/
def Quiet (s : State) : Prop :=
  ∀ t h, s.handlers t = some h → h.pc.obj = none

/-- A path is registered only for a session that is in the table. -/
def RegistersLive (s : State) : Event → Prop
  | .handler t _ _ _ => ∀ h o, s.handlers t = some h → h.pc = .register o →
      s.srv.sessions h.sessionId ≠ none
  | _ => True

/-- A registration makes the session id a key. -/
theorem addPath_clientPaths (srv : Server) (sid : UInt64) (paths : List ClientPath)
    (sid' : UInt64) :
    Function.update srv.clientPaths sid (some paths) sid' ≠ none ↔
      sid' = sid ∨ srv.clientPaths sid' ≠ none := by
  by_cases h : sid' = sid <;> simp [h]

namespace Owned

variable {srv : Server}

/-- A path for a session in the table. -/
theorem register (h : Owned srv) {sid : UInt64} {paths : List ClientPath}
    (hlive : srv.sessions sid ≠ none) :
    Owned { srv with clientPaths := Function.update srv.clientPaths sid (some paths) } := by
  intro sid' hkey
  rcases (addPath_clientPaths srv sid paths sid').mp hkey with rfl | hold
  · exact hlive
  · exact h sid' hold

/-- A new session. -/
theorem createSession (h : Owned srv) {sid : UInt64} {now : ℕ}
    (hnone : srv.sessions sid = none) : Owned (srv.createSession sid now true).1 := by
  intro sid' hkey
  simp only [Server.createSession, hnone, if_true] at hkey ⊢
  by_cases he : sid' = sid
  · simp [he]
  · rw [Function.update_of_ne he]
    exact h sid' hkey

/-- The clean-up of a connection removes paths, not lists. -/
theorem removeTcpPath (h : Owned srv) (k : Option UInt64) (c : ConnId) :
    Owned (srv.removeTcpPath k c) := by
  intro sid hkey
  rw [removeTcpPath_sessions]
  refine h sid fun hnone => hkey ?_
  rw [removeTcpPath_clientPaths, hnone]
  split <;> rfl

/-- The sweep removes the list together with the session. -/
theorem cleanupExpiredSessions (h : Owned srv) (now : ℕ) :
    Owned (srv.cleanupExpiredSessions now) := by
  intro sid hkey
  simp only [Server.cleanupExpiredSessions] at hkey ⊢
  split at hkey
  · exact absurd rfl hkey
  · next hlive =>
      rw [if_neg hlive]
      exact h sid hkey

end Owned

/-- The step lemma. -/
theorem Owned.act {s s' : State} {e : Event} {obs : List Obs} (h : Owned s.srv)
    (hc : RegistersLive s e) (ha : Act s e s' obs) : Owned s'.srv := by
  cases ha with
  | createNew _ _ hnone => exact h.createSession hnone
  | registerUdp ht hpc _ => exact h.register (hc _ _ ht hpc)
  | registerTcp ht hpc _ => exact h.register (hc _ _ ht hpc)
  | removePath _ => exact h.removeTcpPath _ _
  | sweep => exact h.cleanupExpiredSessions _
  | _ => exact h

/-- Right after a registration for a session that has left the table, its list has no owner. -/
theorem registersLive_of_owned {s s' : State} {e : Event} {obs : List Obs}
    (hs : step s e = some (s', obs)) (h : Owned s'.srv) : RegistersLive s e := by
  cases e with
  | handler t now b b' =>
      intro hd o ht hpc
      have hkey : ∀ paths, Function.update s.srv.clientPaths hd.sessionId (some paths)
          hd.sessionId ≠ none := fun paths => by simp
      simp only [step, ht, stepHandler, hpc] at hs
      split at hs <;> obtain ⟨rfl, rfl⟩ := Prod.mk.inj (Option.some.inj hs)
      · exact h hd.sessionId (hkey _)
      · exact h hd.sessionId (hkey _)
  | _ => trivial

/-- **When the lists are owned throughout.**  Along a run every key of `client_paths` is a key of
`sessions` at every moment if and only if every path is registered for a session in the table. -/
theorem owned_iff (cfg : ServerConfig) (es : List Event) {s : State} {tr : List Obs}
    (hrun : (machine cfg).exec es = some (s, tr)) :
    (machine cfg).Always (fun s _ => Owned s.srv) es ↔
      (machine cfg).Each (fun s _ e => RegistersLive s e) es := by
  constructor
  · exact Machine.each_of_always
      (fun _ _ _ _ _ _ _ hstep h => registersLive_of_owned hstep h) hrun
  · refine Machine.always_of_each ?_ fun _ _ _ _ _ h hc hs => h.act hc (act_of_machine hs)
    exact fun sid h => absurd rfl h

/-- **No orphaned path lists.**  In every run, however handlers and sweeps interleave, whose
registrations all find the session in the table: whenever no handler is between its
`get_or_create_session` and its return, every path list is owned by a session. -/
theorem no_orphaned_lists (cfg : ServerConfig) (es : List Event)
    (hlive : (machine cfg).Each (fun s _ e => RegistersLive s e) es) :
    (machine cfg).Always (fun s _ => Quiet s → Owned s.srv) es := by
  intro pre hpre s tr hrun _
  exact (owned_iff cfg pre hrun).mpr (hlive.of_isPrefix hpre) pre (List.prefix_refl _) s tr hrun

/-- The task an event moves, if it is one that handles packets. -/
def Event.task : Event → Option Task
  | .udpArrives l _ _ => some (.listener l)
  | .tcpArrives c _ => some (.conn c)
  | .handler t _ _ _ => some t
  | _ => none

/-- A step that does not move a task leaves it where it is. -/
theorem handlers_unmoved {s s' : State} {e : Event} {obs : List Obs} (ha : Act s e s' obs)
    {t : Task} (hother : e.task ≠ some t) : s'.handlers t = s.handlers t := by
  have hset : ∀ (s₁ : State) {t' : Task} {h : Option Handler}, s₁.handlers = s.handlers →
      some t' ≠ some t → (s₁.setHandler t' h).handlers t = s.handlers t := by
    intro s₁ t' h he hne
    have hne : t ≠ t' := fun ht => hne (ht ▸ rfl)
    simp [State.setHandler, Function.update_of_ne hne, he]
  cases ha with
  | @arrive source _ _ _ _ _ _ htcp hudp _ =>
      cases source with
      | udp l addr =>
          obtain rfl := hudp l addr rfl
          exact hset s rfl hother
      | tcp c =>
          obtain ⟨_, rfl⟩ := htcp c rfl
          exact hset s rfl hother
  | undecodable | accept | connEnds | untrack | removePath | targetReads | targetFails
  | receiverCancelled | responseTouch | responseUntouched | responseNumber | responsePaths
  | responseSend | responseOver | sweep | stop => rfl
  | _ => exact hset _ rfl hother

/-- A task that no event of a run moves handles no packet. -/
theorem idle_of_unmoved {cfg : ServerConfig} {t : Task} {es : List Event} {s : State}
    {tr : List Obs} (hrun : (machine cfg).exec es = some (s, tr))
    (hes : ∀ e ∈ es, e.task ≠ some t) : s.handlers t = none := by
  refine Machine.exec_induction (P := fun es s _ => (∀ e ∈ es, e.task ≠ some t) →
    s.handlers t = none) _ (fun _ => rfl) (fun es s tr e s' o _ ih hs hes => ?_) es s tr hrun hes
  rw [handlers_unmoved (act_of_machine hs)
    (hes e (List.mem_append_right _ (List.mem_singleton.mpr rfl)))]
  exact ih fun e he => hes e (List.mem_append_left _ he)

/-- One packet of session 7, handled from its arrival to the send. -/
def packetOfSeven (seq : UInt32) (now : ℕ) (steps : ℕ) : List Event :=
  .udpArrives 0 demoAddr (Protocol.encodeUdp 7 seq [1]) ::
    List.replicate steps (.handler (.listener 0) now true true)

/-- A check of `RegistersLive`. -/
def registersLive (s : State) : Event → Bool
  | .handler t _ _ _ =>
      match s.handlers t with
      | some ⟨_, sid, _, _, .register _⟩ => (s.srv.sessions sid).isSome
      | _ => true
  | _ => true

theorem registersLive_of_check {s : State} {e : Event} (h : registersLive s e = true) :
    RegistersLive s e := by
  cases e with
  | handler t now b b' =>
      intro hd o ht hpc
      obtain ⟨source, sid, seq, payload, pc⟩ := hd
      dsimp only at hpc
      subst hpc
      simp only [registersLive, ht] at h
      exact Option.isSome_iff_ne_none.mp h
  | _ => trivial

/-- Two packets, a sweep between them and one after the session has expired. -/
def sweptAfterwards : List Event :=
  packetOfSeven 0 10 6 ++ [Event.sweep 20] ++ packetOfSeven 1 30 5 ++ [Event.sweep 100]

/-- The path list goes with its session. -/
theorem no_orphaned_lists_swept_afterwards :
    (∃ s tr, (machine demoConfig).exec sweptAfterwards = some (s, tr) ∧
      s.srv.clientPaths 7 = none) ∧
    (machine demoConfig).Always (fun s _ => Quiet s → Owned s.srv) sweptAfterwards := by
  have hview : ((machine demoConfig).exec sweptAfterwards).map
      (fun r => decide (r.1.srv.clientPaths 7 = none)) = some true := by decide
  obtain ⟨⟨s, tr⟩, hrun, hv⟩ := Option.map_eq_some_iff.mp hview
  exact ⟨⟨s, tr, hrun, of_decide_eq_true hv⟩,
    no_orphaned_lists demoConfig sweptAfterwards
      (Machine.each_of_check (fun _ _ _ => registersLive_of_check) (by decide))⟩

/-- The session was last active at 10.  A packet finds it at 75, the sweep at 75 removes it, and
the handler of the packet goes on to the end. -/
def sweptInBetween : List Event :=
  packetOfSeven 0 10 6 ++ packetOfSeven 1 75 1 ++ [Event.sweep 75] ++
    List.replicate 4 (Event.handler (.listener 0) 75 true true)

/-- The path list of the removed session stays behind. -/
theorem sweep_orphans_list :
    ∃ s tr, (machine demoConfig).exec sweptInBetween = some (s, tr) ∧ Quiet s ∧
      s.srv.clientPaths 7 ≠ none ∧ s.srv.sessions 7 = none := by
  have hview : ((machine demoConfig).exec sweptInBetween).map
      (fun r => (r.1.handlers (.listener 0), r.1.srv.clientPaths 7, r.1.srv.sessions 7)) =
        some (none, some [.udp demoAddr 0], none) := by decide
  obtain ⟨⟨s, tr⟩, hrun, hv⟩ := Option.map_eq_some_iff.mp hview
  simp only [Prod.mk.injEq] at hv
  obtain ⟨hidle, hpaths, hsession⟩ := hv
  refine ⟨s, tr, hrun, fun t h ht => ?_, by simp [hpaths], hsession⟩
  have hidle : s.handlers t = none := by
    by_cases he : t = .listener 0
    · rw [he]
      exact hidle
    · refine idle_of_unmoved hrun fun e hm htask => he ?_
      have hall : ∀ e ∈ sweptInBetween, e.task = none ∨ e.task = some (.listener 0) := by decide
      rcases hall e hm with hnone | hsome
      · exact absurd (hnone.symm.trans htask) (by simp)
      · exact Option.some.inj (htask.symm.trans hsome)
  exact absurd (hidle.symm.trans ht) (by simp)

end Fproxy.Server
