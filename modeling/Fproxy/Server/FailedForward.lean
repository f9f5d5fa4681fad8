import Fproxy.Library.Simulation
import Fproxy.Server.Forwarding
import Fproxy.Server.PathOwners

/-!
# A packet whose send to the target fails

A handler calls `is_duplicate`, which remembers the number, before it sends the packet to the
target.  If the send fails the handler returns, and the window goes on rejecting the number: the
other copies of the packet are dropped as duplicates.

* `rejects_of_forwarded` — after a send, failed or not, the window of its object rejects the number.
* `own t` — the observations of one task, in a run in which all others move as well.
* `held_completes` — a handler past its check sends its packet.
* `later_copy_forwarded_iff` — a later copy is forwarded only if it finds another session object.
* `failed_send_burns_packet` — a copy that arrives over TCP after the first one failed.
-/

namespace Fproxy.Server

open Fproxy.Runs Fproxy.DedupWindow

/-- Once a packet was sent, or its send failed, its window rejects the number. -/
theorem rejects_of_forwarded {cfg : ServerConfig} {es : List Event} {s : State} {tr : List Obs}
    (hrun : (machine cfg).exec es = some (s, tr)) {o : ObjId} {sid : UInt64} {seq : UInt32}
    {payload : List UInt8} {ok : Bool} (hsent : .forwarded o sid seq payload ok ∈ tr) :
    (s.srv.heap o).dedupWindow.Rejects seq := by
  have hmem : (o, seq) ∈ forwards tr := List.mem_filterMap.mpr ⟨_, hsent, rfl⟩
  have hadmitted : (o, seq) ∈ admissions tr := (sound_exec hrun).settled _ hmem
  exact ((objects_exec hrun).tracks o).rejects_of_mem (mem_admissions_iff.mp hadmitted)

/-! ### What one task does -/

/-- The server, observed at one task that handles packets. -/
def own (cfg : ServerConfig) (t : Task) : Machine State Event Obs :=
  (machine cfg).observe fun _ e _ obs => if e.task = some t then obs else []

/-- A task takes no new packet, and its sends to the target succeed. -/
def SendsOk (t : Task) (es : List Event) : Prop :=
  ∀ e ∈ es, e.task = some t → ∃ now b, e = .handler t now b true

/-- A handler that holds a packet its window let through. -/
structure Holds (s : State) (t : Task) (o : ObjId) (sid : UInt64) (seq : UInt32)
    (payload : List UInt8) (h : Handler) : Prop where
  handler : s.handlers t = some h
  sessionId : h.sessionId = sid
  seq : h.seq = seq
  payload : h.payload = payload
  past : h.pc = .track o ∨ h.pc = .register o ∨ h.pc = .forward o

variable {cfg : ServerConfig} {s s' : State} {t : Task} {o : ObjId} {sid : UInt64} {seq : UInt32}
  {payload : List UInt8}

/-- A handler that goes on to a section past its check. -/
theorem holds_goto (s : State) (t : Task) (h : Handler) {pc : HandlerPc}
    (hpast : pc = .track o ∨ pc = .register o ∨ pc = .forward o) :
    Holds (s.setHandler t (some { h with pc := pc })) t o h.sessionId h.seq h.payload
      { h with pc := pc } :=
  ⟨by simp [State.setHandler], rfl, rfl, rfl, hpast⟩

/-- The next section of such a handler, whose send succeeds if it comes to that. -/
theorem Holds.next {h : Handler} (hh : Holds s t o sid seq payload h) {now : ℕ} {b : Bool}
    {obs : List Obs} (hs : step s (.handler t now b true) = some (s', obs)) :
    (∃ h', Holds s' t o sid seq payload h') ∨
      s'.handlers t = none ∧ obs = [.forwarded o sid seq payload true] := by
  obtain ⟨hhand, rfl, rfl, rfl, hpast⟩ := hh
  rcases hpast with hpc | hpc | hpc <;> simp only [step, hhand, stepHandler, hpc] at hs
  · left
    split at hs <;> obtain ⟨rfl, rfl⟩ := Prod.mk.inj (Option.some.inj hs)
    · exact ⟨_, holds_goto _ t h (Or.inr (Or.inl rfl))⟩
    · exact ⟨_, holds_goto _ t h (Or.inr (Or.inl rfl))⟩
  · left
    split at hs <;> obtain ⟨rfl, rfl⟩ := Prod.mk.inj (Option.some.inj hs)
    · exact ⟨_, holds_goto _ t h (Or.inr (Or.inr rfl))⟩
    · exact ⟨_, holds_goto _ t h (Or.inr (Or.inr rfl))⟩
  · right
    obtain ⟨rfl, rfl⟩ := Prod.mk.inj (Option.some.inj hs)
    exact ⟨by simp [State.setHandler], rfl⟩

/-- An idle task that takes no new packet does nothing. -/
theorem idle_execFrom {es : List Event} {tr : List Obs} (hidle : s.handlers t = none)
    (hes : SendsOk t es) (hrun : (own cfg t).execFrom s es = some (s', tr)) : tr = [] := by
  induction es generalizing s tr with
  | nil => exact (Prod.mk.inj (Option.some.inj hrun)).2.symm
  | cons e es ih =>
      obtain ⟨s₁, obs, tr₁, hstep, hrest, rfl⟩ := (own cfg t).execFrom_cons.mp hrun
      obtain ⟨obs', hs, rfl⟩ := Machine.observe_step.mp hstep
      have hother : e.task ≠ some t := by
        intro he
        obtain ⟨now, b, rfl⟩ := hes e List.mem_cons_self he
        simp [machine, step, hidle] at hs
      have hidle₁ : s₁.handlers t = none := by
        rw [handlers_unmoved (act_of_machine hs) hother, hidle]
      rw [if_neg hother, List.nil_append]
      exact ih hidle₁ (fun e' he' => hes e' (List.mem_cons_of_mem _ he')) hrest

/-- **A packet its window let through is sent.**  Whatever the other tasks do meanwhile, a handler
past its check that runs to its end sends its packet to the target. -/
theorem held_completes {h : Handler} {es : List Event} {tr : List Obs}
    (hh : Holds s t o sid seq payload h) (hes : SendsOk t es)
    (hrun : (own cfg t).execFrom s es = some (s', tr)) (hdone : s'.handlers t = none) :
    .forwarded o sid seq payload true ∈ tr := by
  induction es generalizing s tr h with
  | nil =>
      obtain ⟨rfl, _⟩ := Prod.mk.inj (Option.some.inj hrun)
      exact absurd (hdone.symm.trans hh.handler) (by simp)
  | cons e es ih =>
      obtain ⟨s₁, obs, tr₁, hstep, hrest, rfl⟩ := (own cfg t).execFrom_cons.mp hrun
      obtain ⟨obs', hs, rfl⟩ := Machine.observe_step.mp hstep
      have hes' : SendsOk t es := fun e' he' => hes e' (List.mem_cons_of_mem _ he')
      by_cases he : e.task = some t
      · obtain ⟨now, b, rfl⟩ := hes e List.mem_cons_self he
        rw [if_pos he]
        rcases hh.next hs with ⟨h', hh'⟩ | ⟨_, rfl⟩
        · exact List.mem_append_right _ (ih hh' hes' hrest)
        · exact List.mem_append_left _ (List.mem_singleton_self _)
      · have hstay : Holds s₁ t o sid seq payload h :=
          ⟨(handlers_unmoved (act_of_machine hs) he).trans hh.handler, hh.sessionId, hh.seq,
            hh.payload, hh.past⟩
        exact List.mem_append_right _ (ih hstay hes' hrest)

/-- The check of a packet: rejected, the handler returns; let through, it holds the packet. -/
theorem check_next {h : Handler} (ht : s.handlers t = some h) (hpc : h.pc = .check o)
    {now : ℕ} {b b' : Bool} {obs : List Obs}
    (hs : step s (.handler t now b b') = some (s', obs)) :
    (s.srv.heap o).dedupWindow.Rejects h.seq ∧ s'.handlers t = none ∧
        obs = [.checked o h.seq h.payload true] ∨
      ¬ (s.srv.heap o).dedupWindow.Rejects h.seq ∧
        ∃ h', Holds s' t o h.sessionId h.seq h.payload h' := by
  simp only [step, ht, stepHandler, hpc] at hs
  split at hs
  · next srv hd =>
      left
      obtain ⟨rfl, rfl⟩ := Prod.mk.inj (Option.some.inj hs)
      refine ⟨(isDuplicate_iff _ _).mp ?_, by simp [State.setHandler], rfl⟩
      exact congrArg Prod.fst hd
  · next srv hd =>
      right
      refine ⟨fun hrej => ?_, ?_⟩
      · have hdup : (s.srv.checkDuplicate o h.seq).1 = true := (isDuplicate_iff _ _).mpr hrej
        rw [hd] at hdup
        exact absurd hdup (by simp)
      · split at hs <;> obtain ⟨rfl, rfl⟩ := Prod.mk.inj (Option.some.inj hs)
        · exact ⟨_, holds_goto _ t h (Or.inr (Or.inl rfl))⟩
        · exact ⟨_, holds_goto _ t h (Or.inl rfl)⟩

/-- **When a later copy of a packet is forwarded after all.**  The send of a packet has failed on
the target socket of the object `o`.  Later, after any moves of any tasks, a handler of a copy of it
calls `is_duplicate` on the object `o'` that `get_or_create_session` gave it, and runs to its end
with a send that succeeds if it comes to that.  The copy is forwarded if and only if `o'` is another
object than `o`, the session having been removed and created anew, and its window does not reject
the number. -/
theorem later_copy_forwarded_iff (cfg : ServerConfig) {es es' : List Event} {s s' : State}
    {tr tr' : List Obs} (hrun : (machine cfg).exec es = some (s, tr)) {o o' : ObjId}
    {sid : UInt64} {seq : UInt32} {payload : List UInt8}
    (hfail : .forwarded o sid seq payload false ∈ tr) {t : Task} {source : Source}
    (hcopy : s.handlers t = some ⟨source, sid, seq, payload, .check o'⟩) {now : ℕ} {b : Bool}
    (hrest : (own cfg t).execFrom s (.handler t now b true :: es') = some (s', tr'))
    (hes : SendsOk t es') (hdone : s'.handlers t = none) :
    .forwarded o' sid seq payload true ∈ tr' ↔
      o' ≠ o ∧ ¬ (s.srv.heap o').dedupWindow.Rejects seq := by
  obtain ⟨s₁, obs, tr₁, hstep, hrest', rfl⟩ := (own cfg t).execFrom_cons.mp hrest
  obtain ⟨obs', hs, rfl⟩ := Machine.observe_step.mp hstep
  have htask : (Event.handler t now b true).task = some t := rfl
  rw [if_pos htask]
  rcases check_next hcopy rfl hs with ⟨hrej, hidle, rfl⟩ | ⟨hpass, h', hh⟩
  · have hnil := idle_execFrom hidle hes hrest'
    subst hnil
    exact ⟨fun h => absurd h (by simp), fun h => absurd hrej h.2⟩
  · refine ⟨fun _ => ⟨?_, hpass⟩, fun _ => ?_⟩
    · rintro rfl
      exact hpass (rejects_of_forwarded hrun hfail)
    · exact List.mem_append_right _ (held_completes hh hes hrest' hdone)

/-- The first copy of packet 0 of session 7, whose send fails. -/
def failedSend : List Event :=
  .udpArrives 0 demoAddr (Protocol.encodeUdp 7 0 [1]) ::
    List.replicate 6 (.handler (.listener 0) 10 true false)

/-- A copy of packet 0 of session 7 on a connection, up to its check. -/
def secondCopy (now : ℕ) (sections : ℕ) : List Event :=
  .accept 0 :: .tcpArrives 0 (Protocol.encodeTcp 7 0 [1]) ::
    List.replicate sections (.handler (.conn 0) now true true)

/-- The second copy is dropped as a duplicate, though nothing was forwarded. -/
theorem failed_send_burns_packet :
    ∃ s, (machine demoConfig).exec (failedSend ++ secondCopy 11 3) = some (s,
      [.checked 0 0 [1] false, .forwarded 0 7 0 [1] false, .checked 0 0 [1] true]) ∧
      s.handlers (.conn 0) = none := by
  have hview : ((machine demoConfig).exec (failedSend ++ secondCopy 11 3)).map
      (fun r => (r.2, r.1.handlers (.conn 0))) = some (
        [.checked 0 0 [1] false, .forwarded 0 7 0 [1] false, .checked 0 0 [1] true], none) := by
    decide
  obtain ⟨⟨s, tr⟩, hrun, hv⟩ := Option.map_eq_some_iff.mp hview
  obtain ⟨rfl, hidle⟩ := Prod.mk.inj hv
  exact ⟨s, hrun, hidle⟩

/-- After the session has expired, the second copy finds a new object and is forwarded. -/
theorem later_copy_forwarded_after_expiry :
    ∃ s s' tr tr', (machine demoConfig).exec (failedSend ++ .sweep 75 :: secondCopy 80 3) =
        some (s, tr) ∧ .forwarded 0 7 0 [1] false ∈ tr ∧
      (own demoConfig (.conn 0)).execFrom s (.handler (.conn 0) 80 true true ::
          List.replicate 3 (.handler (.conn 0) 80 true true)) = some (s', tr') ∧
      .forwarded 1 7 0 [1] true ∈ tr' := by
  have hview : ((machine demoConfig).exec (failedSend ++ .sweep 75 :: secondCopy 80 3)).bind
      (fun r => ((own demoConfig (.conn 0)).execFrom r.1 (.handler (.conn 0) 80 true true ::
          List.replicate 3 (.handler (.conn 0) 80 true true))).map
        fun q => (decide (.forwarded 0 7 0 [1] false ∈ r.2), r.1.handlers (.conn 0),
          q.1.handlers (.conn 0), ((r.1.srv.heap 1).dedupWindow.isDuplicate 0).1)) =
        some (true, some ⟨.tcp 0, 7, 0, [1], .check 1⟩, none, false) := by decide
  obtain ⟨⟨s, tr⟩, hrun, hq⟩ := Option.bind_eq_some_iff.mp hview
  obtain ⟨⟨s', tr'⟩, hrest, hv⟩ := Option.map_eq_some_iff.mp hq
  simp only [Prod.mk.injEq, decide_eq_true_eq] at hv
  obtain ⟨hfail, hcopy, hdone, hpass⟩ := hv
  have hnew : ¬ (s.srv.heap 1).dedupWindow.Rejects 0 := fun h => by
    rw [(isDuplicate_iff _ _).mpr h] at hpass
    exact absurd hpass (by simp)
  have hes : SendsOk (.conn 0) (List.replicate 3 (.handler (.conn 0) 80 true true)) :=
    fun e he _ => ⟨80, true, List.eq_of_mem_replicate he⟩
  exact ⟨s, s', tr, tr', hrun, hfail, hrest,
    (later_copy_forwarded_iff demoConfig hrun hfail hcopy hrest hes hdone).mpr
      ⟨by decide, hnew⟩⟩

end Fproxy.Server
