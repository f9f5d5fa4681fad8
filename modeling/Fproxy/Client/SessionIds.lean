import Fproxy.Client.Objects

/-!
# Session ids are unique

`session_id_counter` starts anywhere, wraps around, and skips zero.  As long as fewer than `2^64`
sessions are created, no id is assigned twice.

* `Drawn` — where the counter stands after some ids were drawn from it.
* `drawn_exec` — the invariant of every run.
* `createdIds_nodup`, `created_unique` — an id determines its session object and its source.
-/

namespace Fproxy.Client

open Fproxy.Runs

/-! ### The wrapping counter -/

/-- Two offsets from the same start less than `2^64` apart that reach the same value are equal. -/
theorem offset_inj {start : UInt64} {i j : ℕ} (hle : i ≤ j) (hlt : j < i + 2 ^ 64)
    (h : start + UInt64.ofNat i = start + UInt64.ofNat j) : i = j := by
  have hmod : i % 2 ^ 64 = j % 2 ^ 64 := by
    have heq := congrArg UInt64.toNat ((UInt64.add_right_inj start).mp h)
    rwa [UInt64.toNat_ofNat', UInt64.toNat_ofNat'] at heq
  omega

/-- After `draws` increments from `start`, the ids drawn are offsets of the start, and at most one
increment was spent on skipping zero. -/
structure Drawn (start counter : UInt64) (ids : List UInt64) (draws : ℕ) : Prop where
  counter_eq : counter = start + UInt64.ofNat draws
  spent : draws = ids.length ∨
    draws = ids.length + 1 ∧ ∃ i, 1 ≤ i ∧ i ≤ draws ∧ start + UInt64.ofNat i = 0
  drawn : ∀ id ∈ ids, ∃ i, 1 ≤ i ∧ i ≤ draws ∧ id = start + UInt64.ofNat i
  nonzero : (0 : UInt64) ∉ ids
  nodup : ids.Nodup

theorem drawn_start (start : UInt64) : Drawn start start [] 0 where
  counter_eq := by simp
  spent := Or.inl rfl
  drawn := fun _ h => absurd h List.not_mem_nil
  nonzero := List.not_mem_nil
  nodup := List.nodup_nil

namespace Drawn

variable {start counter : UInt64} {ids : List UInt64} {draws : ℕ}

/-- An offset beyond those drawn, but not by a whole turn, is a new id. -/
theorem not_mem (h : Drawn start counter ids draws) {k : ℕ} (hk : draws < k) (hturn : k ≤ 2 ^ 64) :
    start + UInt64.ofNat k ∉ ids := by
  intro hm
  obtain ⟨i, hi₁, hi₂, hid⟩ := h.drawn _ hm
  have heq := offset_inj (by omega) (by omega) hid.symm
  omega

/-- One more id, at an offset further on. -/
theorem append (h : Drawn start counter ids draws) {k : ℕ} (hk : draws < k)
    (hturn : k ≤ 2 ^ 64) (hne : start + UInt64.ofNat k ≠ 0)
    (hspent : k = ids.length + 1 ∨
      k = ids.length + 2 ∧ ∃ i, 1 ≤ i ∧ i ≤ k ∧ start + UInt64.ofNat i = 0) :
    Drawn start (start + UInt64.ofNat k) (ids ++ [start + UInt64.ofNat k]) k where
  counter_eq := rfl
  spent := by simpa using hspent
  drawn := by
    intro id hm
    rcases List.mem_append.mp hm with hm | hm
    · obtain ⟨i, hi₁, hi₂, hid⟩ := h.drawn id hm
      exact ⟨i, hi₁, by omega, hid⟩
    · exact ⟨k, by omega, le_refl _, List.mem_singleton.mp hm⟩
  nonzero := by
    intro hm
    rcases List.mem_append.mp hm with hm | hm
    · exact h.nonzero hm
    · exact hne (List.mem_singleton.mp hm).symm
  nodup := by
    refine h.nodup.append (List.nodup_singleton _) ?_
    rw [List.disjoint_singleton]
    exact h.not_mem hk hturn

/-- **One allocation.**  While fewer than `2^64 - 1` ids are out, the next one is new. -/
theorem allocate (h : Drawn start counter ids draws) (hlen : ids.length + 1 < 2 ^ 64) :
    ∃ draws', Drawn start (allocateSessionId counter) (ids ++ [allocateSessionId counter])
      draws' := by
  have hnext : ∀ k : ℕ, counter + UInt64.ofNat k = start + UInt64.ofNat (draws + k) := by
    intro k
    rw [h.counter_eq, UInt64.ofNat_add, UInt64.add_assoc]
  have h1 : counter + 1 = start + UInt64.ofNat (draws + 1) := hnext 1
  unfold allocateSessionId
  split
  · next hzero =>
      -- zero is skipped, and was never skipped before: the last time would be a whole turn ago
      have h2 : counter + 1 + 1 = start + UInt64.ofNat (draws + 2) := by
        rw [UInt64.add_assoc]
        exact hnext 2
      have hdraws : draws = ids.length := by
        rcases h.spent with hd | ⟨hd, i, hi₁, hi₂, hi⟩
        · exact hd
        · have heq : i = draws + 1 :=
            offset_inj (by omega) (by omega) (hi.trans (h1.symm.trans hzero).symm)
          omega
      refine ⟨draws + 2, ?_⟩
      rw [h2]
      refine h.append (by omega) (by omega) ?_ (Or.inr ⟨by omega, draws + 1, by omega, by omega, ?_⟩)
      · rw [← h2, hzero]
        decide
      · exact h1.symm.trans hzero
  · next hne =>
      refine ⟨draws + 1, ?_⟩
      rw [h1]
      refine h.append (by omega) ?_ (fun hz => hne (h1.trans hz)) ?_
      · rcases h.spent with hd | ⟨hd, _⟩ <;> omega
      · rcases h.spent with hd | ⟨hd, i, hi₁, hi₂, hi⟩
        · exact Or.inl (by omega)
        · exact Or.inr ⟨by omega, i, hi₁, by omega, hi⟩

end Drawn

/-! ### The ids along a run -/

/-- The ids assigned along a run, oldest first. -/
def createdIds (tr : List Obs) : List UInt64 :=
  tr.filterMap fun
    | .created _ sid _ => some sid
    | _ => none

@[simp] theorem createdIds_append (tr tr' : List Obs) :
    createdIds (tr ++ tr') = createdIds tr ++ createdIds tr' := List.filterMap_append

theorem mem_createdIds {tr : List Obs} {o : SessionObj} {sid : UInt64} {source : SocketAddr}
    (h : .created o sid source ∈ tr) : sid ∈ createdIds tr :=
  List.mem_filterMap.mpr ⟨_, h, rfl⟩

theorem drawn_act {start : UInt64} {s s' : State} {tr obs : List Obs} {e : Event} {draws : ℕ}
    (hi : Drawn start s.cl.sessionIdCounter (createdIds tr) draws) (ha : Act s e s' obs)
    (hlen : (createdIds (tr ++ obs)).length < 2 ^ 64) :
    ∃ draws', Drawn start s'.cl.sessionIdCounter (createdIds (tr ++ obs)) draws' := by
  have hquiet : s'.cl.sessionIdCounter = s.cl.sessionIdCounter → createdIds obs = [] →
      ∃ draws', Drawn start s'.cl.sessionIdCounter (createdIds (tr ++ obs)) draws' := by
    intro hc hobs
    refine ⟨draws, ?_⟩
    rwa [hc, createdIds_append, hobs, List.append_nil]
  cases ha with
  | @createNew h now random b b' _ _ hnone =>
      rw [createdIds_append] at hlen ⊢
      have hcount : (createdIds tr).length + 1 < 2 ^ 64 := by simpa [createdIds] using hlen
      have hcounter : (s.cl.createUdpSession h.source random now).1.sessionIdCounter =
          allocateSessionId s.cl.sessionIdCounter := by
        simp only [createUdpSession, hnone]
      rw [hcounter]
      exact hi.allocate hcount
  | @tcpCreateNew h o seq server servers now random b' _ _ hnone =>
      refine hquiet ?_ rfl
      simp only [createTcpSession, hnone, if_true]
  | @udpSend h o seq i senders now random b b' _ _ => exact hquiet rfl (by cases b' <;> rfl)
  | @tcpSend h o seq c servers frame now random b b' _ _ _ =>
      exact hquiet rfl (by cases b' <;> rfl)
  | cleanup _ => exact hquiet (by simp [setReader]) rfl
  | _ => exact hquiet rfl rfl

/-- The invariant of every run that creates fewer than `2^64` sessions. -/
theorem drawn_exec {cfg : ClientConfig} {counter : UInt64} {es : List Event} {s : State}
    {tr : List Obs} (hrun : (machine cfg counter).exec es = some (s, tr))
    (hlen : (createdIds tr).length < 2 ^ 64) :
    ∃ draws, Drawn counter s.cl.sessionIdCounter (createdIds tr) draws := by
  revert hlen
  refine Machine.invariant
    (I := fun s tr => (createdIds tr).length < 2 ^ 64 →
      ∃ draws, Drawn counter s.cl.sessionIdCounter (createdIds tr) draws) _
    (fun _ => ⟨0, drawn_start counter⟩) (fun s tr e s' obs hi hs hlen => ?_) hrun
  have hpre : (createdIds tr).length < 2 ^ 64 := by
    rw [createdIds_append, List.length_append] at hlen
    omega
  obtain ⟨draws, hd⟩ := hi hpre
  exact drawn_act hd (act_of_machine hs) hlen

/-- **No id is assigned twice.** -/
theorem createdIds_nodup {cfg : ClientConfig} {counter : UInt64} {es : List Event} {s : State}
    {tr : List Obs} (hrun : (machine cfg counter).exec es = some (s, tr))
    (hlen : (createdIds tr).length < 2 ^ 64) : (createdIds tr).Nodup :=
  (drawn_exec hrun hlen).elim fun _ h => h.nodup

/-- If no id occurs twice, an id determines the session it was assigned to. -/
theorem created_unique {tr : List Obs} (hnodup : (createdIds tr).Nodup) {o o' : SessionObj}
    {sid : UInt64} {source source' : SocketAddr} (h : .created o sid source ∈ tr)
    (h' : .created o' sid source' ∈ tr) : o = o' ∧ source = source' := by
  induction tr with
  | nil => exact absurd h List.not_mem_nil
  | cons obs tr ih =>
      have hcons : createdIds (obs :: tr) = createdIds [obs] ++ createdIds tr :=
        createdIds_append [obs] tr
      rw [hcons, List.nodup_append] at hnodup
      rcases List.mem_cons.mp h with rfl | h <;> rcases List.mem_cons.mp h' with he | h'
      · obtain ⟨rfl, _, rfl⟩ := Obs.created.inj he
        exact ⟨rfl, rfl⟩
      · exact absurd rfl (hnodup.2.2 sid (by simp [createdIds]) sid (mem_createdIds h'))
      · rw [← he] at hnodup
        exact absurd rfl (hnodup.2.2 sid (by simp [createdIds]) sid (mem_createdIds h))
      · exact ih hnodup.2.1 h h'

end Fproxy.Client
