import Fproxy.Library.Runs

/-!
# Derived machines and the simulation rule

* `calls init f` — an object whose method answers and updates it, `f : σ → ε → ο × σ`, as a machine
  whose every step is defined.  Its runs are the sequences of calls, its trace the answers.
* `observe M view` — the same machine with other observations, read off the steps.
* `exec_related` — a relation that one step of either of two machines keeps, with equal
  observations, gives both the same observations on every schedule.
* `exec_filter` — events that do nothing in any state can be left out of a schedule.
-/

namespace Fproxy.Runs

namespace Machine

variable {σ τ ε ο ω : Type*}

/-! ### Calls on one object -/

/-- The calls of the method `f` on an object that starts as `init`. -/
def calls (init : σ) (f : σ → ε → ο × σ) : Machine σ ε ο :=
  ⟨init, fun s e => some ((f s e).2, [(f s e).1])⟩

theorem calls_step {init : σ} {f : σ → ε → ο × σ} {s s' : σ} {e : ε} {o : List ο} :
    (calls init f).step s e = some (s', o) ↔ s' = (f s e).2 ∧ o = [(f s e).1] := by
  simp only [calls, Option.some.injEq, Prod.mk.injEq]
  constructor <;> rintro ⟨h₁, h₂⟩ <;> exact ⟨h₁.symm, h₂.symm⟩

/-- One more call. -/
theorem calls_snoc {init : σ} {f : σ → ε → ο × σ} {es : List ε} {s : σ} {tr : List ο}
    (h : (calls init f).exec es = some (s, tr)) (e : ε) :
    (calls init f).exec (es ++ [e]) = some ((f s e).2, tr ++ [(f s e).1]) :=
  (exec_snoc _).mpr ⟨s, tr, _, h, calls_step.mpr ⟨rfl, rfl⟩, rfl⟩

/-- Every sequence of calls returns. -/
theorem calls_total (init : σ) (f : σ → ε → ο × σ) (es : List ε) :
    ∃ s tr, (calls init f).exec es = some (s, tr) := by
  induction es using List.reverseRecOn with
  | nil => exact ⟨init, [], rfl⟩
  | append_singleton es e ih =>
      obtain ⟨s, tr, h⟩ := ih
      exact ⟨_, _, calls_snoc h e⟩

/-! ### Other observations of the same machine -/

/-- The machine `M`, observed through what `view` reads off each step and its observations. -/
def observe (M : Machine σ ε ο) (view : σ → ε → σ → List ο → List ω) : Machine σ ε ω :=
  ⟨M.init, fun s e => (M.step s e).map fun r => (r.1, view s e r.1 r.2)⟩

theorem observe_step {M : Machine σ ε ο} {view : σ → ε → σ → List ο → List ω} {s s' : σ} {e : ε}
    {o : List ω} :
    (M.observe view).step s e = some (s', o) ↔
      ∃ o', M.step s e = some (s', o') ∧ o = view s e s' o' := by
  simp only [observe, Option.map_eq_some_iff, Prod.exists, Prod.mk.injEq]
  constructor
  · rintro ⟨s₁, o', hstep, rfl, rfl⟩
    exact ⟨o', hstep, rfl⟩
  · rintro ⟨o', hstep, rfl⟩
    exact ⟨s', o', hstep, rfl, rfl⟩

/-- The observed machine makes the runs of the machine itself. -/
theorem observe_exec {M : Machine σ ε ο} (view : σ → ε → σ → List ο → List ω) {es : List ε}
    {s : σ} {tr : List ο} (h : M.exec es = some (s, tr)) :
    ∃ tr', (M.observe view).exec es = some (s, tr') := by
  refine M.exec_induction (P := fun es s _ => ∃ tr', (M.observe view).exec es = some (s, tr'))
    ⟨[], rfl⟩ (fun es s tr e s' o _ ih hs => ?_) es s tr h
  obtain ⟨tr', hrun⟩ := ih
  exact ⟨_, (exec_snoc _).mpr ⟨s, tr', _, hrun, observe_step.mpr ⟨o, hs, rfl⟩, rfl⟩⟩

/-- A run of the observed machine is a run of the machine. -/
theorem exec_of_observe {M : Machine σ ε ο} {view : σ → ε → σ → List ο → List ω} {es : List ε}
    {s : σ} {tr : List ω} (h : (M.observe view).exec es = some (s, tr)) :
    ∃ tr', M.exec es = some (s, tr') := by
  refine (M.observe view).exec_induction (P := fun es s _ => ∃ tr', M.exec es = some (s, tr'))
    ⟨[], rfl⟩ (fun es s tr e s' o _ ih hs => ?_) es s tr h
  obtain ⟨tr', hrun⟩ := ih
  obtain ⟨o', hstep, -⟩ := observe_step.mp hs
  exact ⟨_, M.exec_snoc.mpr ⟨s, tr', o', hrun, hstep, rfl⟩⟩

/-! ### Simulation -/

/-- **The simulation rule.**  Two machines that start related, and whose steps on the same event
emit the same observations and keep the relation, emit the same trace on every schedule. -/
theorem exec_related {M : Machine σ ε ο} {N : Machine τ ε ο} {R : σ → τ → Prop}
    (h0 : R M.init N.init)
    (hstep : ∀ s t e s' o, R s t → M.step s e = some (s', o) →
      ∃ t', N.step t e = some (t', o) ∧ R s' t')
    {es : List ε} {s : σ} {tr : List ο} (h : M.exec es = some (s, tr)) :
    ∃ t, N.exec es = some (t, tr) ∧ R s t := by
  refine M.exec_induction (P := fun es s tr => ∃ t, N.exec es = some (t, tr) ∧ R s t)
    ⟨N.init, rfl, h0⟩ (fun es s tr e s' o _ ih hs => ?_) es s tr h
  obtain ⟨t, hrun, hR⟩ := ih
  obtain ⟨t', ht, hR'⟩ := hstep s t e s' o hR hs
  exact ⟨t', N.exec_snoc.mpr ⟨t, tr, o, hrun, ht, rfl⟩, hR'⟩

/-- **Purging.**  A schedule and the same schedule without the events that do nothing, whatever the
state, lead to the same state with the same observations. -/
theorem exec_filter (M : Machine σ ε ο) {keep : ε → Bool}
    (hidle : ∀ s e, keep e = false → M.step s e = some (s, [])) (es : List ε) :
    M.exec (es.filter keep) = M.exec es := by
  have hfrom : ∀ s, M.execFrom s (es.filter keep) = M.execFrom s es := by
    induction es with
    | nil => exact fun _ => rfl
    | cons e es ih =>
        intro s
        cases hk : keep e with
        | true =>
            rw [List.filter_cons_of_pos hk]
            simp only [execFrom, ih]
        | false =>
            rw [List.filter_cons_of_neg (by simp [hk])]
            simp [execFrom, hidle s e hk, ih]
  exact hfrom M.init

end Machine

end Fproxy.Runs
