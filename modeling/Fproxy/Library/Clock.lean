import Fproxy.Library.Simulation

/-!
# Runs under a clock

`clocked M reads` is the machine `M` under a clock that does not run backwards: every event comes
with the time at which it occurs, an event that reads the clock itself reads this time, and every
observation is stamped with it.

* `clocked_exec` — without the clock, a run is a run of `M`.
* `stamp_le` — no observation of a run is stamped later than the clock shows.
* `stamps_sorted` — the stamps of a run do not decrease.

`delayed M reads delay` is `M` under a clock that an event may have read before it occurs, up to
`delay` before.  Every observation is stamped with what its event has read.

* `delayed_exec` — without the clock, a run is a run of `M`.
* `delayed_stamps` — a stamp is behind an earlier one by the delay at most.
-/

namespace Fproxy.Runs

namespace Machine

variable {σ ε ο : Type*}

/-- The machine under a clock that starts at zero; `reads` is the clock reading in an event. -/
def clocked (M : Machine σ ε ο) (reads : ε → Option ℕ) : Machine (σ × ℕ) (ℕ × ε) (ℕ × ο) where
  init := (M.init, 0)
  step s e :=
    if s.2 ≤ e.1 ∧ (reads e.2).getD e.1 = e.1 then
      (M.step s.1 e.2).map fun r => ((r.1, e.1), r.2.map (Prod.mk e.1))
    else none

variable {M : Machine σ ε ο} {reads : ε → Option ℕ}

theorem clocked_step {s s' : σ × ℕ} {e : ℕ × ε} {o : List (ℕ × ο)} :
    (M.clocked reads).step s e = some (s', o) ↔
      (s.2 ≤ e.1 ∧ (reads e.2).getD e.1 = e.1) ∧
        ∃ o', M.step s.1 e.2 = some (s'.1, o') ∧ s'.2 = e.1 ∧ o = o'.map (Prod.mk e.1) := by
  simp only [clocked, Option.ite_none_right_eq_some, Option.map_eq_some_iff, Prod.exists,
    Prod.mk.injEq]
  constructor
  · rintro ⟨hc, s₁, o', hstep, rfl, rfl⟩
    exact ⟨hc, o', hstep, rfl, rfl⟩
  · rintro ⟨hc, o', hstep, ht, rfl⟩
    exact ⟨hc, s'.1, o', hstep, by rw [← ht], rfl⟩

/-- Without the clock, a run of the clocked machine is a run of the machine. -/
theorem clocked_exec {es : List (ℕ × ε)} {s : σ × ℕ} {tr : List (ℕ × ο)}
    (h : (M.clocked reads).exec es = some (s, tr)) :
    M.exec (es.map Prod.snd) = some (s.1, tr.map Prod.snd) := by
  refine (M.clocked reads).exec_induction
    (P := fun es s tr => M.exec (es.map Prod.snd) = some (s.1, tr.map Prod.snd)) rfl
    (fun es s tr e s' o _ ih hs => ?_) es s tr h
  obtain ⟨-, o', hstep, -, rfl⟩ := clocked_step.mp hs
  rw [List.map_append, List.map_append, List.map_map]
  refine M.exec_snoc.mpr ⟨s.1, tr.map Prod.snd, o', ih, hstep, ?_⟩
  rw [show (Prod.snd ∘ Prod.mk e.1 : ο → ο) = id from rfl, List.map_id]

/-- No observation is stamped later than the clock shows. -/
theorem stamp_le {es : List (ℕ × ε)} {s : σ × ℕ} {tr : List (ℕ × ο)}
    (h : (M.clocked reads).exec es = some (s, tr)) : ∀ x ∈ tr, x.1 ≤ s.2 := by
  refine (M.clocked reads).invariant (I := fun s tr => ∀ x ∈ tr, x.1 ≤ s.2)
    (fun _ hx => absurd hx List.not_mem_nil) (fun s tr e s' o hi hs x hx => ?_) h
  obtain ⟨⟨hle, -⟩, o', -, ht, rfl⟩ := clocked_step.mp hs
  rw [ht]
  rcases List.mem_append.mp hx with hx | hx
  · exact (hi x hx).trans hle
  · obtain ⟨y, -, rfl⟩ := List.mem_map.mp hx
    exact le_refl _

/-- The stamps of a run do not decrease. -/
theorem stamps_sorted {es : List (ℕ × ε)} {s : σ × ℕ} {tr : List (ℕ × ο)}
    (h : (M.clocked reads).exec es = some (s, tr)) : tr.Pairwise fun x y => x.1 ≤ y.1 := by
  refine (M.clocked reads).exec_induction
    (P := fun _ _ tr => tr.Pairwise fun x y => x.1 ≤ y.1) List.Pairwise.nil
    (fun es s tr e s' o hrun ih hs => ?_) es s tr h
  obtain ⟨⟨hle, -⟩, o', -, -, rfl⟩ := clocked_step.mp hs
  refine List.pairwise_append.mpr ⟨ih, ?_, fun x hx y hy => ?_⟩
  · exact List.pairwise_map.mpr (List.pairwise_of_forall fun _ _ => le_refl e.1)
  · obtain ⟨z, -, rfl⟩ := List.mem_map.mp hy
    exact (stamp_le hrun x hx).trans hle

/-! ### Clock readings that are out of date -/

/-- The machine under a clock that an event has read at most `delay` ago. -/
def delayed (M : Machine σ ε ο) (reads : ε → Option ℕ) (delay : ℕ) :
    Machine (σ × ℕ) (ℕ × ε) (ℕ × ο) where
  init := (M.init, 0)
  step s e :=
    if s.2 ≤ e.1 ∧ (reads e.2).getD e.1 ≤ e.1 ∧ e.1 ≤ (reads e.2).getD e.1 + delay then
      (M.step s.1 e.2).map fun r => ((r.1, e.1), r.2.map (Prod.mk ((reads e.2).getD e.1)))
    else none

variable {delay : ℕ}

theorem delayed_step {s s' : σ × ℕ} {e : ℕ × ε} {o : List (ℕ × ο)} :
    (M.delayed reads delay).step s e = some (s', o) ↔
      (s.2 ≤ e.1 ∧ (reads e.2).getD e.1 ≤ e.1 ∧ e.1 ≤ (reads e.2).getD e.1 + delay) ∧
        ∃ o', M.step s.1 e.2 = some (s'.1, o') ∧ s'.2 = e.1 ∧
          o = o'.map (Prod.mk ((reads e.2).getD e.1)) := by
  simp only [delayed, Option.ite_none_right_eq_some, Option.map_eq_some_iff, Prod.exists,
    Prod.mk.injEq]
  constructor
  · rintro ⟨hc, s₁, o', hstep, rfl, rfl⟩
    exact ⟨hc, o', hstep, rfl, rfl⟩
  · rintro ⟨hc, o', hstep, ht, rfl⟩
    exact ⟨hc, s'.1, o', hstep, by rw [← ht], rfl⟩

/-- Without the clock, a run of the delayed machine is a run of the machine. -/
theorem delayed_exec {es : List (ℕ × ε)} {s : σ × ℕ} {tr : List (ℕ × ο)}
    (h : (M.delayed reads delay).exec es = some (s, tr)) :
    M.exec (es.map Prod.snd) = some (s.1, tr.map Prod.snd) := by
  refine (M.delayed reads delay).exec_induction
    (P := fun es s tr => M.exec (es.map Prod.snd) = some (s.1, tr.map Prod.snd)) rfl
    (fun es s tr e s' o _ ih hs => ?_) es s tr h
  obtain ⟨-, o', hstep, -, rfl⟩ := delayed_step.mp hs
  rw [List.map_append, List.map_append, List.map_map]
  refine M.exec_snoc.mpr ⟨s.1, tr.map Prod.snd, o', ih, hstep, ?_⟩
  exact congrArg _ (List.map_id o')

/-- No event has read what the clock does not show yet. -/
theorem delayed_stamp_le {es : List (ℕ × ε)} {s : σ × ℕ} {tr : List (ℕ × ο)}
    (h : (M.delayed reads delay).exec es = some (s, tr)) : ∀ x ∈ tr, x.1 ≤ s.2 := by
  refine (M.delayed reads delay).invariant (I := fun s tr => ∀ x ∈ tr, x.1 ≤ s.2)
    (fun _ hx => absurd hx List.not_mem_nil) (fun s tr e s' o hi hs x hx => ?_) h
  obtain ⟨⟨hle, hpast, -⟩, o', -, ht, rfl⟩ := delayed_step.mp hs
  rw [ht]
  rcases List.mem_append.mp hx with hx | hx
  · exact (hi x hx).trans hle
  · obtain ⟨y, -, rfl⟩ := List.mem_map.mp hx
    exact hpast

/-- A stamp is behind an earlier one by the delay at most. -/
theorem delayed_stamps {es : List (ℕ × ε)} {s : σ × ℕ} {tr : List (ℕ × ο)}
    (h : (M.delayed reads delay).exec es = some (s, tr)) :
    tr.Pairwise fun x y => x.1 ≤ y.1 + delay := by
  refine (M.delayed reads delay).exec_induction
    (P := fun _ _ tr => tr.Pairwise fun x y => x.1 ≤ y.1 + delay) List.Pairwise.nil
    (fun es s tr e s' o hrun ih hs => ?_) es s tr h
  obtain ⟨⟨hle, -, hdelay⟩, o', -, -, rfl⟩ := delayed_step.mp hs
  refine List.pairwise_append.mpr ⟨ih, ?_, fun x hx y hy => ?_⟩
  · exact List.pairwise_map.mpr (List.pairwise_of_forall fun _ _ => Nat.le_add_right _ _)
  · obtain ⟨z, -, rfl⟩ := List.mem_map.mp hy
    exact (delayed_stamp_le hrun x hx).trans (hle.trans hdelay)

end Machine

end Fproxy.Runs
