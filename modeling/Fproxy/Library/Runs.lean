import Mathlib.Data.List.Infix
import Mathlib.Logic.Function.Basic
import Mathlib.Tactic.Common

/-!
# Runs of a machine under an arbitrary schedule

A machine takes one event at a time.  The event carries everything the environment decides
(which task moves, what arrives, what the clock reads), so a schedule is a list of events and a
run is determined by it.  A step also emits observations; the trace of a run is their
concatenation.

* `exec` runs a schedule from the initial state; `exec_snoc` peels its last event.
* `exec_induction` is the invariant rule: what holds initially and is preserved by one step of a
  run holds of every run.
* `Each C es` says that every step of the run meets the condition `C` on the state it is taken
  in, `Always P es` that every state visited satisfies `P`; `always_of_each` and
  `each_of_always` pass from one to the other.

Nothing here mentions a particular program.
-/

namespace Fproxy.Runs

/-- A machine with partial steps: `step s e` is `none` where the event `e` cannot occur in `s`. -/
structure Machine (σ ε ο : Type*) where
  init : σ
  step : σ → ε → Option (σ × List ο)

namespace Machine

variable {σ ε ο : Type*} (M : Machine σ ε ο)

/-- Run a schedule from a given state, collecting the observations in order. -/
def execFrom : σ → List ε → Option (σ × List ο)
  | s, [] => some (s, [])
  | s, e :: es =>
      (M.step s e).bind fun r => (execFrom r.1 es).map fun q => (q.1, r.2 ++ q.2)

/-- Run a schedule from the initial state. -/
def exec (es : List ε) : Option (σ × List ο) := M.execFrom M.init es

@[simp] theorem exec_nil : M.exec [] = some (M.init, []) := rfl

theorem execFrom_cons {s : σ} {e : ε} {es : List ε} {s' : σ} {tr : List ο} :
    M.execFrom s (e :: es) = some (s', tr) ↔
      ∃ s₁ o₁ tr₁, M.step s e = some (s₁, o₁) ∧ M.execFrom s₁ es = some (s', tr₁) ∧
        tr = o₁ ++ tr₁ := by
  simp only [execFrom, Option.bind_eq_some_iff, Option.map_eq_some_iff, Prod.exists,
    Prod.mk.injEq]
  constructor
  · rintro ⟨s₁, o₁, hstep, s₂, tr₁, hrun, rfl, rfl⟩
    exact ⟨s₁, o₁, tr₁, hstep, hrun, rfl⟩
  · rintro ⟨s₁, o₁, tr₁, hstep, hrun, rfl⟩
    exact ⟨s₁, o₁, hstep, s', tr₁, hrun, rfl, rfl⟩

/-- A first step and the run after it. -/
theorem execFrom_cons_eq {s s₁ s' : σ} {e : ε} {es : List ε} {o₁ tr₁ : List ο}
    (hstep : M.step s e = some (s₁, o₁)) (hrun : M.execFrom s₁ es = some (s', tr₁)) :
    M.execFrom s (e :: es) = some (s', o₁ ++ tr₁) :=
  (M.execFrom_cons).mpr ⟨s₁, o₁, tr₁, hstep, hrun, rfl⟩

theorem execFrom_append {s : σ} {es₁ es₂ : List ε} {s' : σ} {tr : List ο} :
    M.execFrom s (es₁ ++ es₂) = some (s', tr) ↔
      ∃ s₁ tr₁ tr₂, M.execFrom s es₁ = some (s₁, tr₁) ∧ M.execFrom s₁ es₂ = some (s', tr₂) ∧
        tr = tr₁ ++ tr₂ := by
  induction es₁ generalizing s tr with
  | nil => simp [execFrom]
  | cons e es₁ ih =>
      rw [List.cons_append, execFrom_cons]
      constructor
      · rintro ⟨s₁, o₁, tr₁, hstep, hrun, rfl⟩
        obtain ⟨s₂, t₁, t₂, h₁, h₂, rfl⟩ := ih.mp hrun
        exact ⟨s₂, o₁ ++ t₁, t₂, (M.execFrom_cons).mpr ⟨s₁, o₁, t₁, hstep, h₁, rfl⟩, h₂,
          (List.append_assoc _ _ _).symm⟩
      · rintro ⟨s₂, t₁, t₂, h₁, h₂, rfl⟩
        obtain ⟨s₁, o₁, tr₁, hstep, hrun, rfl⟩ := (M.execFrom_cons).mp h₁
        exact ⟨s₁, o₁, tr₁ ++ t₂, hstep, ih.mpr ⟨s₂, tr₁, t₂, hrun, h₂, rfl⟩,
          List.append_assoc _ _ _⟩

/-- A run of `es ++ [e]` is a run of `es` followed by one step. -/
theorem exec_snoc {es : List ε} {e : ε} {s' : σ} {tr : List ο} :
    M.exec (es ++ [e]) = some (s', tr) ↔
      ∃ s tr₀ o, M.exec es = some (s, tr₀) ∧ M.step s e = some (s', o) ∧ tr = tr₀ ++ o := by
  rw [exec, execFrom_append]
  constructor
  · rintro ⟨s, tr₀, tr₁, h₀, h₁, rfl⟩
    obtain ⟨s₁, o₁, t₁, hstep, hnil, rfl⟩ := (M.execFrom_cons).mp h₁
    simp only [execFrom, Option.some.injEq, Prod.mk.injEq] at hnil
    obtain ⟨rfl, rfl⟩ := hnil
    exact ⟨s, tr₀, o₁, h₀, hstep, by rw [List.append_nil]⟩
  · rintro ⟨s, tr₀, o, h₀, hstep, rfl⟩
    exact ⟨s, tr₀, o, h₀, (M.execFrom_cons).mpr ⟨s', o, [], hstep, rfl, by simp⟩, rfl⟩

/-- **The run rule.**  What holds of the empty run and is preserved by one more step holds of
every run. -/
theorem exec_induction {P : List ε → σ → List ο → Prop} (h0 : P [] M.init [])
    (hstep : ∀ es s tr e s' o, M.exec es = some (s, tr) → P es s tr →
      M.step s e = some (s', o) → P (es ++ [e]) s' (tr ++ o)) :
    ∀ es s tr, M.exec es = some (s, tr) → P es s tr := by
  intro es
  induction es using List.reverseRecOn with
  | nil =>
      intro s tr h
      simp only [exec_nil, Option.some.injEq, Prod.mk.injEq] at h
      obtain ⟨rfl, rfl⟩ := h
      exact h0
  | append_singleton es e ih =>
      intro s' tr h
      obtain ⟨s, tr₀, o, hrun, hs, rfl⟩ := M.exec_snoc.mp h
      exact hstep es s tr₀ e s' o hrun (ih s tr₀ hrun) hs

/-- The invariant rule for a predicate on the state and the trace so far. -/
theorem invariant {I : σ → List ο → Prop} (h0 : I M.init [])
    (hstep : ∀ s tr e s' o, I s tr → M.step s e = some (s', o) → I s' (tr ++ o))
    {es : List ε} {s : σ} {tr : List ο} (h : M.exec es = some (s, tr)) : I s tr :=
  M.exec_induction (P := fun _ s tr => I s tr) h0
    (fun _ s tr e s' o _ hI hs => hstep s tr e s' o hI hs) es s tr h

/-- Every prefix of a schedule that runs also runs. -/
theorem exec_of_isPrefix {es pre : List ε} (hpre : pre <+: es) {s : σ} {tr : List ο}
    (h : M.exec es = some (s, tr)) : ∃ s₀ tr₀, M.exec pre = some (s₀, tr₀) := by
  obtain ⟨suf, rfl⟩ := hpre
  obtain ⟨s₀, tr₀, _, h₀, _, _⟩ := M.execFrom_append.mp h
  exact ⟨s₀, tr₀, h₀⟩

/-! ### Conditions on the steps of a run -/

/-- Every event of the schedule is taken in a state (and after a trace) satisfying `C`. -/
def Each (C : σ → List ο → ε → Prop) (es : List ε) : Prop :=
  ∀ pre e, pre ++ [e] <+: es → ∀ s tr, M.exec pre = some (s, tr) → C s tr e

/-- Every state the run visits, the initial and the last one included, satisfies `P`. -/
def Always (P : σ → List ο → Prop) (es : List ε) : Prop :=
  ∀ pre, pre <+: es → ∀ s tr, M.exec pre = some (s, tr) → P s tr

variable {M}

theorem Each.snoc {C : σ → List ο → ε → Prop} {es : List ε} {e : ε}
    (h : M.Each C (es ++ [e])) : M.Each C es :=
  fun pre e' hpre => h pre e' (hpre.trans (List.prefix_append _ _))

theorem Each.last {C : σ → List ο → ε → Prop} {es : List ε} {e : ε} {s : σ} {tr : List ο}
    (h : M.Each C (es ++ [e])) (hrun : M.exec es = some (s, tr)) : C s tr e :=
  h es e (List.prefix_refl _) s tr hrun

theorem Each.of_isPrefix {C : σ → List ο → ε → Prop} {es pre : List ε} (h : M.Each C es)
    (hpre : pre <+: es) : M.Each C pre :=
  fun p e hp => h p e (hp.trans hpre)

/-- A computable check of the condition at every position of a schedule. -/
theorem each_of_check_trace {C : σ → List ο → ε → Prop} {check : σ → List ο → ε → Bool}
    (hcheck : ∀ s tr e, check s tr e = true → C s tr e) {es : List ε}
    (h : ∀ i : Fin es.length, (M.exec (es.take i)).all (fun r => check r.1 r.2 es[i]) = true) :
    M.Each C es := by
  rintro pre e ⟨suf, rfl⟩ s tr hrun
  have hi : pre.length < (pre ++ [e] ++ suf).length := by simp
  have hat := h ⟨pre.length, hi⟩
  have htake : (pre ++ [e] ++ suf).take pre.length = pre := by
    rw [List.append_assoc, List.take_left]
  simp only [htake, hrun, Option.all_some] at hat
  refine hcheck s tr e ?_
  simpa using hat

/-- A check that does not look at the trace. -/
theorem each_of_check {C : σ → List ο → ε → Prop} {check : σ → ε → Bool}
    (hcheck : ∀ s tr e, check s e = true → C s tr e) {es : List ε}
    (h : ∀ i : Fin es.length, (M.exec (es.take i)).all (fun r => check r.1 es[i]) = true) :
    M.Each C es :=
  each_of_check_trace hcheck h

/-- The invariant rule for runs whose steps all meet a condition. -/
theorem invariant_of_each {C : σ → List ο → ε → Prop} {I : σ → List ο → Prop}
    (h0 : I M.init [])
    (hstep : ∀ s tr e s' o, I s tr → C s tr e → M.step s e = some (s', o) → I s' (tr ++ o))
    {es : List ε} (hC : M.Each C es) {s : σ} {tr : List ο}
    (h : M.exec es = some (s, tr)) : I s tr := by
  refine M.exec_induction (P := fun es s tr => M.Each C es → I s tr) (fun _ => h0) ?_ es s tr h hC
  intro es s tr e s' o hrun ih hs hC
  exact hstep s tr e s' o (ih hC.snoc) (hC.last hrun) hs

/-- If the condition on the steps preserves `P`, then `P` always holds. -/
theorem always_of_each {C : σ → List ο → ε → Prop} {P : σ → List ο → Prop}
    (h0 : P M.init [])
    (hstep : ∀ s tr e s' o, P s tr → C s tr e → M.step s e = some (s', o) → P s' (tr ++ o))
    {es : List ε} (hC : M.Each C es) : M.Always P es :=
  fun _ hpre _ _ hrun => invariant_of_each h0 hstep (hC.of_isPrefix hpre) hrun

/-- Inside a run, what a prefix reaches takes the step that follows it. -/
theorem step_of_isPrefix {es pre : List ε} {e : ε} (hpre : pre ++ [e] <+: es) {s s' : σ}
    {tr tr' : List ο} (hrun : M.exec es = some (s', tr')) (hs : M.exec pre = some (s, tr)) :
    ∃ s₁ o, M.step s e = some (s₁, o) ∧ M.exec (pre ++ [e]) = some (s₁, tr ++ o) := by
  obtain ⟨s₁, tr₁, h₁⟩ := M.exec_of_isPrefix hpre hrun
  obtain ⟨s₀, tr₀, o, h₀, hstep, rfl⟩ := M.exec_snoc.mp h₁
  obtain ⟨rfl, rfl⟩ := Prod.mk.inj (Option.some.inj (hs.symm.trans h₀))
  exact ⟨s₁, o, hstep, h₁⟩

/-- If breaking the condition at a step breaks `P` right after it, a run in which `P` always
holds meets the condition at every step. -/
theorem each_of_always {C : σ → List ο → ε → Prop} {P : σ → List ο → Prop}
    (hstep : ∀ es s tr e s' o, M.exec es = some (s, tr) → M.step s e = some (s', o) →
      P s' (tr ++ o) → C s tr e)
    {es : List ε} {s' : σ} {tr' : List ο} (hrun : M.exec es = some (s', tr'))
    (hP : M.Always P es) : M.Each C es := by
  intro pre e hpre s tr hs
  obtain ⟨s₁, o, hstep₁, h₁⟩ := step_of_isPrefix hpre hrun hs
  exact hstep pre s tr e s₁ o hs hstep₁ (hP _ hpre _ _ h₁)

end Machine

end Fproxy.Runs
