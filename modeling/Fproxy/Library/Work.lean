import Mathlib.Algebra.BigOperators.Group.Finset.Basic
import Mathlib.Algebra.Order.BigOperators.Group.Finset
import Fproxy.Library.Runs

/-!
# Machines that run out of work

The work left in a state is a number that every step of some kind makes smaller.  Then a run of such
steps is no longer than the work it starts with, and if one of them can be taken as long as
something is unfinished, such a run finishes.

* `Spends` — the steps of a kind spend work, from the states of an invariant.
* `Spends.length_le` — the bound on a run of such steps.
* `Spends.finishes` — a run of such steps that finishes.
* `sum_range_lt` — the work of many tasks, of which one moves.
-/

namespace Fproxy.Runs.Machine

variable {σ ε ο : Type*} {M : Machine σ ε ο} {I : σ → Prop} {counts : ε → Prop} {work : σ → ℕ}

/-- From a state of the invariant, a step of this kind spends work and keeps the invariant. -/
structure Spends (M : Machine σ ε ο) (I : σ → Prop) (counts : ε → Prop) (work : σ → ℕ) :
    Prop where
  keeps : ∀ {s e s' o}, I s → counts e → M.step s e = some (s', o) → I s'
  spends : ∀ {s e s' o}, I s → counts e → M.step s e = some (s', o) → work s' < work s

/-- **The bound.**  A run takes no more steps than there is work. -/
theorem Spends.length_le (h : Spends M I counts work) {es : List ε} :
    ∀ {s s' : σ} {tr : List ο}, I s → (∀ e ∈ es, counts e) → M.execFrom s es = some (s', tr) →
      I s' ∧ es.length + work s' ≤ work s := by
  induction es with
  | nil =>
      intro s s' tr hi _ hrun
      simp only [execFrom, Option.some.injEq, Prod.mk.injEq] at hrun
      obtain ⟨rfl, -⟩ := hrun
      exact ⟨hi, by simp⟩
  | cons e es ih =>
      intro s s' tr hi hc hrun
      obtain ⟨s₁, o₁, tr₁, hstep, hrest, -⟩ := M.execFrom_cons.mp hrun
      have he : counts e := hc e List.mem_cons_self
      obtain ⟨hi', hle⟩ :=
        ih (h.keeps hi he hstep) (fun e' h' => hc e' (List.mem_cons_of_mem _ h')) hrest
      have hlt := h.spends hi he hstep
      refine ⟨hi', ?_⟩
      rw [List.length_cons]
      omega

/-- **Finishing.**  If a step can be taken as long as something is unfinished, some run finishes. -/
theorem Spends.finishes (h : Spends M I counts work) {finished : σ → Prop}
    (hgo : ∀ s, I s → finished s ∨ ∃ e s' o, counts e ∧ M.step s e = some (s', o)) {s : σ}
    (hi : I s) :
    ∃ es s' tr, (∀ e ∈ es, counts e) ∧ M.execFrom s es = some (s', tr) ∧ finished s' := by
  -- by induction on the work left
  induction hw : work s using Nat.strong_induction_on generalizing s with
  | _ n ih =>
      rcases hgo s hi with hdone | ⟨e, s₁, o, hc, hstep⟩
      · exact ⟨[], s, [], fun _ hm => absurd hm List.not_mem_nil, rfl, hdone⟩
      · have hlt : work s₁ < n := hw ▸ h.spends hi hc hstep
        obtain ⟨es, s', tr, hes, hrun, hdone⟩ := ih (work s₁) hlt (h.keeps hi hc hstep) rfl
        refine ⟨e :: es, s', o ++ tr, fun e' hm => ?_, execFrom_cons_eq M hstep hrun, hdone⟩
        rcases List.mem_cons.mp hm with rfl | hm
        · exact hc
        · exact hes e' hm

/-- One task of many spends work, the others do not move. -/
theorem sum_range_lt {f g : ℕ → ℕ} {n i : ℕ} (hi : i < n) (hlt : f i < g i)
    (hsame : ∀ j, j ≠ i → f j = g j) : ∑ j ∈ Finset.range n, f j < ∑ j ∈ Finset.range n, g j := by
  refine Finset.sum_lt_sum (fun j _ => ?_) ⟨i, Finset.mem_range.mpr hi, hlt⟩
  by_cases hj : j = i
  · exact hj ▸ Nat.le_of_lt hlt
  · exact Nat.le_of_eq (hsame j hj)

end Fproxy.Runs.Machine
