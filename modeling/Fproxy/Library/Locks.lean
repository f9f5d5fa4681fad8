import Mathlib.Algebra.GroupWithZero.Nat
import Mathlib.Algebra.Order.BigOperators.Group.List
import Mathlib.Logic.Relation
import Fproxy.Library.Work

/-!
# Locks taken in order

Tasks take and give back locks, each for itself or shared with others.  A task that asks for a lock
waits until the lock is given to it; to whom a lock is given among those who wait for it is up to
the implementation of the lock.  Every lock has a rank, and a task asks only for locks of a higher
rank than those it holds.  A task may also call something outside, which returns when it likes or
never.  Then no schedule of the tasks gets stuck but in such calls.

* `after` — the locks held after a list of operations; `Balanced` — a list of operations that
  leaves what was held before, with rules for sections, sequences and loops.
* `machine` — tasks under an arbitrary schedule; `Live` — whoever implements the lock lets someone
  into a free lock.
* `Ordered` — the invariant of a run.
* `Ordered.chain_ends` — who waits, waits in the end for someone who can move or is in a call.
* `HeldUpByCalls` — every run is bounded, stops only where everyone waits for calls, and finishes if
  they return; `heldUpByCalls` — programs that take locks in order are held up by calls alone.
* `NeverStuck` — every run is bounded, and can be continued until all tasks are through;
  `neverStuck` — programs without calls that take locks in order never get stuck.
* `program` — the operations of one task in a run of another machine, whose steps are sections;
  `sections_heldUpByCalls`, `sections_neverStuck` — the results for such runs.
-/

namespace Fproxy.Locks

open Fproxy.Runs

variable {L τ : Type*}

/-! ### Operations -/

/-- Who else may hold a lock. -/
inductive Mode where
  | shared
  | exclusive
  deriving DecidableEq

/-- An operation on a lock. -/
inductive Op (L : Type*) where
  | acquire (l : L) (m : Mode)
  | release (l : L)
  /-- A call that may not return. -/
  | call
  deriving DecidableEq

/-- The operations of a section that holds a lock. -/
def locked (l : L) (m : Mode) (body : List (Op L)) : List (Op L) :=
  .acquire l m :: (body ++ [.release l])

/-- The locks held after some operations, from those held before; none where a lock is asked for
that is not above all that are held, or the lock given back is not the last one taken. -/
def after [DecidableEq L] (rank : L → ℕ) : List (L × Mode) → List (Op L) → Option (List (L × Mode))
  | held, [] => some held
  | held, .acquire l m :: ops =>
      if ∀ h ∈ held, rank h.1 < rank l then after rank ((l, m) :: held) ops else none
  | held, .call :: ops => after rank held ops
  | [], .release _ :: _ => none
  | h :: held, .release l :: ops => if h.1 = l then after rank held ops else none

/-- Operations on locks of rank `r` or more that end with the locks they begin with. -/
def Balanced [DecidableEq L] (rank : L → ℕ) (r : ℕ) (ops : List (Op L)) : Prop :=
  ∀ held rest, (∀ h ∈ held, rank h.1 < r) → after rank held (ops ++ rest) = after rank held rest

section Balanced

variable [DecidableEq L] {rank : L → ℕ} {r : ℕ}

@[simp] theorem Balanced.nil : Balanced rank r [] := fun _ _ _ => rfl

theorem Balanced.append {ops₁ ops₂ : List (Op L)} (h₁ : Balanced rank r ops₁)
    (h₂ : Balanced rank r ops₂) : Balanced rank r (ops₁ ++ ops₂) := by
  intro held rest hheld
  rw [List.append_assoc, h₁ held _ hheld, h₂ held _ hheld]

/-- A section of a lock of rank `r` or more, whose body asks for higher locks only. -/
theorem Balanced.locked {l : L} {m : Mode} {body : List (Op L)} (hr : r ≤ rank l)
    (hbody : Balanced rank (rank l + 1) body) : Balanced rank r (locked l m body) := by
  intro held rest hheld
  have hbelow : ∀ h ∈ held, rank h.1 < rank l := fun h hm => Nat.lt_of_lt_of_le (hheld h hm) hr
  have hin : ∀ h ∈ (l, m) :: held, rank h.1 < rank l + 1 := by
    intro h hm
    rcases List.mem_cons.mp hm with rfl | hm
    · exact Nat.lt_succ_self _
    · exact Nat.lt_succ_of_lt (hbelow h hm)
  rw [Locks.locked, List.cons_append, after, if_pos hbelow, List.append_assoc,
    hbody _ _ hin, List.singleton_append, after, if_pos rfl]

/-- A section that asks for no other lock. -/
theorem Balanced.short {l : L} {m : Mode} (hr : r ≤ rank l) :
    Balanced rank r (Locks.locked l m []) :=
  .locked hr .nil

/-- A task that holds nothing may ask for any lock. -/
theorem Balanced.single {l : L} {m : Mode} : Balanced rank 0 (Locks.locked l m []) :=
  .short (Nat.zero_le _)

/-- A call. -/
@[simp] theorem Balanced.call : Balanced rank r [Op.call] := fun _ _ _ => rfl

theorem Balanced.calls (n : ℕ) : Balanced rank r (List.replicate n Op.call) := by
  induction n with
  | zero => exact .nil
  | succ n ih => exact Balanced.call.append ih

/-- A loop. -/
theorem Balanced.flatMap {α : Type*} {xs : List α} {f : α → List (Op L)}
    (h : ∀ x ∈ xs, Balanced rank r (f x)) : Balanced rank r (xs.flatMap f) := by
  induction xs with
  | nil => exact .nil
  | cons x xs ih =>
      rw [List.flatMap_cons]
      exact (h x List.mem_cons_self).append (ih fun y hm => h y (List.mem_cons_of_mem _ hm))

/-- What is balanced leaves a task that holds nothing without locks. -/
theorem Balanced.after_nil {ops : List (Op L)} (h : Balanced rank r ops) :
    after rank [] ops = some [] := by
  have hnil := h [] [] (fun _ hm => absurd hm List.not_mem_nil)
  rw [List.append_nil] at hnil
  exact hnil

end Balanced

/-! ### Tasks -/

/-- A task: the locks it holds, whether it waits for the first operation left, and what is left. -/
structure Task (L : Type*) where
  held : List (L × Mode)
  waiting : Bool
  rest : List (Op L)

/-- The task waits for a lock. -/
def Task.WaitsFor (k : Task L) (l : L) : Prop :=
  k.waiting = true ∧ ∃ m ops, k.rest = .acquire l m :: ops

/-- The tasks, and who waits for a lock, in the order they came. -/
structure State (τ L : Type*) where
  tasks : τ → Task L
  queue : L → List τ

/-- A task asks for a lock or gives one back, is given the lock it waits for, or has its call
returned. -/
inductive Event (τ : Type*) where
  | move (t : τ)
  | grant (t : τ)
  | returns (t : τ)
  deriving DecidableEq

namespace State

/-- Set a task. -/
def setTask [DecidableEq τ] (s : State τ L) (t : τ) (k : Task L) : State τ L :=
  { s with tasks := Function.update s.tasks t k }

/-- Set who waits for a lock. -/
def setQueue [DecidableEq L] (s : State τ L) (l : L) (q : List τ) : State τ L :=
  { s with queue := Function.update s.queue l q }

/-- The task holds the lock. -/
def Holds (s : State τ L) (t : τ) (l : L) : Prop := ∃ m, (l, m) ∈ (s.tasks t).held

/-- No task of a list holds a lock in a way that excludes this one. -/
def compatible [DecidableEq L] (s : State τ L) (names : List τ) (l : L) (m : Mode) : Bool :=
  names.all fun t => (s.tasks t).held.all fun h => h.1 ≠ l ∨ (h.2 = .shared ∧ m = .shared)

end State

/-- An implementation of the lock: whether it lets in a task that waits. -/
abbrev Admits (τ L : Type*) := State τ L → L → τ → Bool

/-- A free lock that is waited for is given to someone. -/
def Live (admits : Admits τ L) : Prop :=
  ∀ s l, s.queue l ≠ [] → (∀ t, ¬ s.Holds t l) → ∃ t ∈ s.queue l, admits s l t = true

/-- First come, first served. -/
def fifo [DecidableEq τ] : Admits τ L := fun s l t => (s.queue l).head? = some t

theorem live_fifo [DecidableEq τ] : Live (fifo : Admits τ L) := by
  intro s l hq _
  cases hl : s.queue l with
  | nil => exact absurd hl hq
  | cons t q => exact ⟨t, List.mem_cons_self, by simp [fifo, hl]⟩

/-! ### The invariant -/

section Order

variable [DecidableEq L] {rank : L → ℕ} {names : List τ} {s : State τ L}

/-- Every task keeps to the order, who is queued waits, and who waits is queued. -/
structure Ordered (rank : L → ℕ) (names : List τ) (s : State τ L) : Prop where
  disciplined : ∀ t, after rank (s.tasks t).held (s.tasks t).rest = some []
  named : ∀ t, (s.tasks t).rest ≠ [] → t ∈ names
  waits : ∀ t, (s.tasks t).waiting = true → ∃ l, (s.tasks t).WaitsFor l ∧ t ∈ s.queue l
  queued : ∀ t l, t ∈ s.queue l → (s.tasks t).WaitsFor l
  nodup : ∀ l, (s.queue l).Nodup

/-- A task waits for a lock that another holds. -/
def Blocks (s : State τ L) (t u : τ) : Prop := ∃ l, (s.tasks t).WaitsFor l ∧ s.Holds u l

/-- The task is in a call. -/
def InCall (s : State τ L) (t : τ) : Prop := ∃ ops, (s.tasks t).rest = .call :: ops

/-- The task can go on as far as the other tasks are concerned. -/
def Free (s : State τ L) (t : τ) : Prop :=
  (s.tasks t).rest ≠ [] ∧ ¬ InCall s t ∧ ∀ l, (s.tasks t).WaitsFor l → ∀ u, ¬ s.Holds u l

/-- A task that does not wait is in no queue. -/
theorem Ordered.not_queued (h : Ordered rank names s) {t : τ} {l : L}
    (hw : (s.tasks t).waiting = false) : t ∉ s.queue l := by
  intro hq
  have hwaits := (h.queued t l hq).1
  rw [hw] at hwaits
  exact absurd hwaits (by simp)

/-- A task that holds a lock is not through, and waits for higher locks only. -/
theorem Ordered.holder (h : Ordered rank names s) {t : τ} {l : L} (hl : s.Holds t l) :
    (s.tasks t).rest ≠ [] ∧ ∀ l', (s.tasks t).WaitsFor l' → rank l < rank l' := by
  obtain ⟨m, hm⟩ := hl
  have hd := h.disciplined t
  refine ⟨?_, fun l' hw => ?_⟩
  · intro hrest
    rw [hrest, after] at hd
    rw [Option.some.inj hd] at hm
    exact absurd hm List.not_mem_nil
  · obtain ⟨-, m', ops, heq⟩ := hw
    rw [heq, after] at hd
    split at hd
    · next habove => exact habove _ hm
    · exact absurd hd (by simp)

/-- **No circular waiting.**  Whoever waits for a lock, waits in the end for a task that can go on
or is in a call. -/
theorem Ordered.chain_ends (h : Ordered rank names s) {bound : ℕ} (hbound : ∀ l, rank l < bound)
    {t : τ} (ht : (s.tasks t).rest ≠ []) :
    ∃ u, Relation.ReflTransGen (Blocks s) t u ∧ (Free s u ∨ InCall s u) := by
  -- each holder waits for a higher lock than the task it blocks
  have hchain : ∀ n t, (s.tasks t).rest ≠ [] →
      (∀ l, (s.tasks t).WaitsFor l → bound - rank l ≤ n) →
      ∃ u, Relation.ReflTransGen (Blocks s) t u ∧ (Free s u ∨ InCall s u) := by
    intro n
    induction n with
    | zero =>
        intro t ht hn
        by_cases hcall : InCall s t
        · exact ⟨t, .refl, .inr hcall⟩
        · refine ⟨t, .refl, .inl ⟨ht, hcall, fun l hw => ?_⟩⟩
          have hl := hn l hw
          have hb := hbound l
          omega
    | succ n ih =>
        intro t ht hn
        by_cases hend : Free s t ∨ InCall s t
        · exact ⟨t, .refl, hend⟩
        · have hblocked : ∃ l u, (s.tasks t).WaitsFor l ∧ s.Holds u l := by
            by_contra hno
            exact hend (.inl ⟨ht, fun hc => hend (.inr hc), fun l hw u hu => hno ⟨l, u, hw, hu⟩⟩)
          obtain ⟨l, u, hw, hu⟩ := hblocked
          obtain ⟨hrest, habove⟩ := h.holder hu
          have hless : ∀ l', (s.tasks u).WaitsFor l' → bound - rank l' ≤ n := by
            intro l' hw'
            have hlt := habove l' hw'
            have hl := hn l hw
            omega
          obtain ⟨v, hv, hfv⟩ := ih u hrest hless
          exact ⟨v, Relation.ReflTransGen.head ⟨l, hw, hu⟩ hv, hfv⟩
  exact hchain bound t ht fun l _ => Nat.sub_le _ _

/-- A lock that nobody holds excludes nobody. -/
theorem compatible_of_free {l : L} (m : Mode) (hfree : ∀ u, ¬ s.Holds u l) :
    s.compatible names l m = true := by
  refine List.all_eq_true.mpr fun t _ => List.all_eq_true.mpr fun k hk => ?_
  have hne : k.1 ≠ l := by
    intro he
    exact hfree t ⟨k.2, he ▸ hk⟩
  simp [hne]

end Order

/-! ### Moves -/

variable [DecidableEq L] [DecidableEq τ]

/-- One move; `none` where the event cannot occur. -/
def step (names : List τ) (admits : Admits τ L) (s : State τ L) : Event τ → Option (State τ L)
  | .move t =>
      match s.tasks t with
      | ⟨held, false, .acquire l m :: ops⟩ =>
          some ((s.setTask t ⟨held, true, .acquire l m :: ops⟩).setQueue l (s.queue l ++ [t]))
      | ⟨held, false, .release l :: ops⟩ =>
          some (s.setTask t ⟨held.eraseP fun h => h.1 = l, false, ops⟩)
      | _ => none
  | .returns t =>
      match s.tasks t with
      | ⟨held, false, .call :: ops⟩ => some (s.setTask t ⟨held, false, ops⟩)
      | _ => none
  | .grant t =>
      match s.tasks t with
      | ⟨held, true, .acquire l m :: ops⟩ =>
          if s.compatible names l m ∧ admits s l t then
            some ((s.setTask t ⟨(l, m) :: held, false, ops⟩).setQueue l ((s.queue l).erase t))
          else none
      | _ => none

/-- The tasks of a list with their programs. -/
def machine (names : List τ) (admits : Admits τ L) (programs : τ → List (Op L)) :
    Machine (State τ L) (Event τ) Empty where
  init := ⟨fun t => ⟨[], false, programs t⟩, fun _ => []⟩
  step s e := (step names admits s e).map fun s' => (s', [])

/-- What a move does, with one rule for each operation. -/
inductive Move (names : List τ) (admits : Admits τ L) (s : State τ L) :
    Event τ → State τ L → Prop
  | ask {t : τ} {held : List (L × Mode)} {l : L} {m : Mode} {ops : List (Op L)} :
      s.tasks t = ⟨held, false, .acquire l m :: ops⟩ →
      Move names admits s (.move t)
        ((s.setTask t ⟨held, true, .acquire l m :: ops⟩).setQueue l (s.queue l ++ [t]))
  | give {t : τ} {held : List (L × Mode)} {l : L} {ops : List (Op L)} :
      s.tasks t = ⟨held, false, .release l :: ops⟩ →
      Move names admits s (.move t) (s.setTask t ⟨held.eraseP fun h => h.1 = l, false, ops⟩)
  | take {t : τ} {held : List (L × Mode)} {l : L} {m : Mode} {ops : List (Op L)} :
      s.tasks t = ⟨held, true, .acquire l m :: ops⟩ → s.compatible names l m = true →
      admits s l t = true →
      Move names admits s (.grant t)
        ((s.setTask t ⟨(l, m) :: held, false, ops⟩).setQueue l ((s.queue l).erase t))
  | comeBack {t : τ} {held : List (L × Mode)} {ops : List (Op L)} :
      s.tasks t = ⟨held, false, .call :: ops⟩ →
      Move names admits s (.returns t) (s.setTask t ⟨held, false, ops⟩)

section Moves

variable {rank : L → ℕ} {names : List τ} {admits : Admits τ L} {s s' : State τ L}

theorem move_of_step {e : Event τ} (h : step names admits s e = some s') :
    Move names admits s e s' := by
  cases e with
  | move t =>
      simp only [step] at h
      split at h
      · next ht => exact Option.some.inj h ▸ .ask ht
      · next ht => exact Option.some.inj h ▸ .give ht
      · exact absurd h (by simp)
  | grant t =>
      simp only [step] at h
      split at h
      · next ht =>
          split at h
          · next hc => exact Option.some.inj h ▸ .take ht hc.1 hc.2
          · exact absurd h (by simp)
      · exact absurd h (by simp)
  | returns t =>
      simp only [step] at h
      split at h
      · next ht => exact Option.some.inj h ▸ .comeBack ht
      · exact absurd h (by simp)

theorem ordered_init {programs : τ → List (Op L)}
    (hprograms : ∀ t, after rank [] (programs t) = some [])
    (hnames : ∀ t, programs t ≠ [] → t ∈ names) :
    Ordered rank names (machine names admits programs).init :=
  ⟨hprograms, hnames, fun _ h => absurd h (by simp [machine]),
    fun _ _ h => absurd h (by simp [machine]), fun _ => List.nodup_nil⟩

/-- One task becomes another, and queues where it waits. -/
theorem Ordered.replace (h : Ordered rank names s) {t : τ} {k : Task L} {queue : L → List τ}
    (hd : after rank k.held k.rest = some []) (hname : k.rest ≠ [] → t ∈ names)
    (hwait : k.waiting = true → ∃ l, k.WaitsFor l) (hmine : ∀ l, t ∈ queue l ↔ k.WaitsFor l)
    (hothers : ∀ l u, u ≠ t → (u ∈ queue l ↔ u ∈ s.queue l)) (hnodup : ∀ l, (queue l).Nodup) :
    Ordered rank names ⟨Function.update s.tasks t k, queue⟩ := by
  refine ⟨fun u => ?_, fun u => ?_, fun u => ?_, fun u l => ?_, hnodup⟩ <;>
    by_cases hut : u = t <;> dsimp only
  · rw [hut, Function.update_self]
    exact hd
  · rw [Function.update_of_ne hut]
    exact h.disciplined u
  · rw [hut, Function.update_self]
    exact hname
  · rw [Function.update_of_ne hut]
    exact h.named u
  · rw [hut, Function.update_self]
    intro hw
    obtain ⟨l, hl⟩ := hwait hw
    exact ⟨l, hl, (hmine l).mpr hl⟩
  · rw [Function.update_of_ne hut]
    intro hw
    obtain ⟨l, hl, hq⟩ := h.waits u hw
    exact ⟨l, hl, (hothers l u hut).mpr hq⟩
  · rw [hut, Function.update_self]
    exact (hmine l).mp
  · rw [Function.update_of_ne hut]
    intro hq
    exact h.queued u l ((hothers l u hut).mp hq)

/-- A move keeps the order. -/
theorem Ordered.move {e : Event τ} (h : Ordered rank names s) (hm : Move names admits s e s') :
    Ordered rank names s' := by
  cases hm with
  | @ask t held l m ops ht =>
      have hd := h.disciplined t
      have hname := h.named t
      have hout : ∀ l', t ∉ s.queue l' := fun l' => h.not_queued (by rw [ht])
      rw [ht] at hd hname
      refine h.replace hd hname (fun _ => ⟨l, rfl, m, ops, rfl⟩) (fun l' => ?_)
        (fun l' u hu => ?_) (fun l' => ?_) <;> by_cases hl : l' = l
      · subst hl
        exact iff_of_true (by simp) ⟨rfl, m, ops, rfl⟩
      · rw [Function.update_of_ne hl]
        refine iff_of_false (hout l') ?_
        rintro ⟨-, m', ops', heq⟩
        exact hl (Op.acquire.inj (List.cons.inj heq).1).1.symm
      · subst hl
        simp [hu]
      · rw [Function.update_of_ne hl]
        exact Iff.rfl
      · subst hl
        rw [Function.update_self]
        exact List.nodup_append.mpr ⟨h.nodup _, List.nodup_singleton _, by
          intro a ha b hb hab
          rw [List.mem_singleton.mp hb] at hab
          exact hout _ (hab ▸ ha)⟩
      · rw [Function.update_of_ne hl]
        exact h.nodup l'
  | @give t held l ops ht =>
      have hd := h.disciplined t
      have hname := h.named t
      have hout : ∀ l', t ∉ s.queue l' := fun l' => h.not_queued (by rw [ht])
      rw [ht] at hd hname
      refine h.replace ?_ (fun _ => hname (by simp)) (fun hw => absurd hw (by simp))
        (fun l' => iff_of_false (hout l') fun hw => absurd hw.1 (by simp))
        (fun _ _ _ => Iff.rfl) h.nodup
      -- the lock given back is the last one taken
      cases held with
      | nil => exact absurd hd (by simp [after])
      | cons k held =>
          rw [after] at hd
          split at hd
          · next hk =>
              rw [List.eraseP_cons_of_pos (by simpa using hk)]
              exact hd
          · exact absurd hd (by simp)
  | @comeBack t held ops ht =>
      have hd := h.disciplined t
      have hname := h.named t
      have hout : ∀ l', t ∉ s.queue l' := fun l' => h.not_queued (by rw [ht])
      rw [ht] at hd hname
      exact h.replace hd (fun _ => hname (by simp)) (fun hw => absurd hw (by simp))
        (fun l' => iff_of_false (hout l') fun hw => absurd hw.1 (by simp))
        (fun _ _ _ => Iff.rfl) h.nodup
  | @take t held l m ops ht hc ha =>
      have hd := h.disciplined t
      have hname := h.named t
      have hin : ∀ l', t ∈ s.queue l' → l' = l := by
        intro l' hq
        obtain ⟨-, m', ops', heq⟩ := h.queued t l' hq
        rw [ht] at heq
        exact (Op.acquire.inj (List.cons.inj heq).1).1.symm
      rw [ht] at hd hname
      have hd : after rank ((l, m) :: held) ops = some [] := by
        rw [after] at hd
        split at hd
        · exact hd
        · exact absurd hd (by simp)
      refine h.replace hd (fun _ => hname (by simp)) (fun hw => absurd hw (by simp))
        (fun l' => iff_of_false ?_ fun hw => absurd hw.1 (by simp)) (fun l' u hu => ?_)
        (fun l' => ?_) <;> by_cases hl : l' = l
      · subst hl
        rw [Function.update_self]
        intro hq
        exact ((h.nodup l').mem_erase_iff.mp hq).1 rfl
      · rw [Function.update_of_ne hl]
        exact fun hq => hl (hin l' hq)
      · subst hl
        rw [Function.update_self]
        exact List.mem_erase_of_ne hu
      · rw [Function.update_of_ne hl]
        exact Iff.rfl
      · subst hl
        rw [Function.update_self]
        exact (h.nodup l').erase t
      · rw [Function.update_of_ne hl]
        exact h.nodup l'

/-- Where a task can go on, some task can move without a call returning. -/
theorem Ordered.free_moves (h : Ordered rank names s) (hlive : Live admits) {u : τ}
    (hfree : Free s u) : ∃ e s', (∀ t, e ≠ .returns t) ∧ step names admits s e = some s' := by
  obtain ⟨hrest, hcall, hnone⟩ := hfree
  cases hu : s.tasks u with
  | mk held waiting rest =>
  rw [hu] at hrest
  cases waiting with
  | false =>
      refine ⟨.move u, ?_⟩
      cases rest with
      | nil => exact absurd rfl hrest
      | cons op ops =>
          cases op with
          | acquire l m => exact ⟨_, by simp, by simp only [step, hu]; rfl⟩
          | release l => exact ⟨_, by simp, by simp only [step, hu]; rfl⟩
          | call => exact absurd ⟨ops, by rw [hu]⟩ hcall
  | true =>
      obtain ⟨l, hw, hq⟩ := h.waits u (by rw [hu])
      have hnone := hnone l hw
      obtain ⟨v, hv, hadmits⟩ := hlive s l (List.ne_nil_of_mem hq) hnone
      obtain ⟨hwv, m, ops, heq⟩ := h.queued v l hv
      cases hk : s.tasks v with
      | mk held' waiting' rest' =>
      rw [hk] at hwv heq
      obtain rfl : waiting' = true := hwv
      obtain rfl : rest' = .acquire l m :: ops := heq
      exact ⟨.grant v, _, by simp, by
        simp only [step, hk]
        rw [if_pos ⟨compatible_of_free m hnone, hadmits⟩]⟩

/-- A task in a call can go on if the call returns. -/
theorem Ordered.call_returns (h : Ordered rank names s) {u : τ} (hcall : InCall s u) :
    ∃ s', step names admits s (.returns u) = some s' := by
  obtain ⟨ops, hops⟩ := hcall
  have hwait : (s.tasks u).waiting = false := by
    by_contra hw
    obtain ⟨l, ⟨-, m, ops', heq⟩, -⟩ := h.waits u (by simpa using hw)
    exact absurd (hops.symm.trans heq) (by simp)
  cases hu : s.tasks u with
  | mk held waiting rest =>
  rw [hu] at hops hwait
  obtain rfl : waiting = false := hwait
  obtain rfl : rest = .call :: ops := hops
  exact ⟨_, by simp only [step, hu]; rfl⟩

/-- While a task is not through, some task can move. -/
theorem Ordered.goes_on (h : Ordered rank names s) (hlive : Live admits) {bound : ℕ}
    (hbound : ∀ l, rank l < bound) {t : τ} (ht : (s.tasks t).rest ≠ []) :
    ∃ e s', step names admits s e = some s' := by
  obtain ⟨u, -, hfree | hcall⟩ := h.chain_ends hbound ht
  · obtain ⟨e, s', -, hs⟩ := h.free_moves hlive hfree
    exact ⟨e, s', hs⟩
  · obtain ⟨s', hs⟩ := h.call_returns hcall
    exact ⟨_, s', hs⟩

/-- Without calls before, there are none after. -/
theorem Move.no_calls {e : Event τ} (hm : Move names admits s e s')
    (h : ∀ t, .call ∉ (s.tasks t).rest) (t : τ) : .call ∉ (s'.tasks t).rest := by
  have hrest : ∀ {t' : τ} {k : Task L}, (∀ op ∈ k.rest, op ∈ (s.tasks t').rest) →
      .call ∉ (Function.update s.tasks t' k t).rest := by
    intro t' k hsub hmem
    by_cases ht : t = t'
    · rw [ht, Function.update_self] at hmem
      exact h t' (hsub _ hmem)
    · rw [Function.update_of_ne ht] at hmem
      exact h t hmem
  cases hm with
  | ask ht => exact hrest fun op hop => by rw [ht]; exact hop
  | give ht | take ht _ _ | comeBack ht =>
      exact hrest fun op hop => by rw [ht]; exact List.mem_cons_of_mem _ hop

end Moves

/-! ### Every run ends -/

/-- The work left: two moves for every operation, one less where a lock has been asked for. -/
def work (names : List τ) (s : State τ L) : ℕ :=
  (names.map fun t => 2 * (s.tasks t).rest.length - if (s.tasks t).waiting then 1 else 0).sum

section Run

variable {rank : L → ℕ} {names : List τ} {admits : Admits τ L} {programs : τ → List (Op L)}

omit [DecidableEq L] in
/-- The work of one task is less, that of the others the same. -/
theorem work_replace {s s' : State τ L} {t : τ} {k : Task L} (hname : t ∈ names)
    (hs : s'.tasks = Function.update s.tasks t k)
    (hless : (2 * k.rest.length - if k.waiting then 1 else 0) <
      2 * (s.tasks t).rest.length - if (s.tasks t).waiting then 1 else 0) :
    work names s' < work names s := by
  refine List.sum_lt_sum _ _ (fun u _ => ?_) ⟨t, hname, ?_⟩ <;> rw [hs]
  · by_cases hu : u = t
    · rw [hu, Function.update_self]
      exact Nat.le_of_lt hless
    · rw [Function.update_of_ne hu]
  · rw [Function.update_self]
    exact hless

/-- Every move spends work. -/
theorem spends : Machine.Spends (machine names admits programs) (Ordered rank names)
    (fun _ => True) (work names) := by
  refine ⟨fun h _ hs => ?_, fun {s e s' o} h _ hs => ?_⟩ <;>
    obtain ⟨s₁, hstep, he⟩ := Option.map_eq_some_iff.mp hs <;> obtain ⟨rfl, -⟩ := Prod.mk.inj he
  · exact h.move (move_of_step hstep)
  · cases move_of_step hstep with
    | @ask t held l m ops ht =>
        refine work_replace (h.named t (by rw [ht]; simp)) rfl ?_
        rw [ht]
        simp only [List.length_cons, if_true, Bool.false_eq_true, if_false]
        omega
    | @give t held l ops ht =>
        refine work_replace (h.named t (by rw [ht]; simp)) rfl ?_
        rw [ht]
        simp only [List.length_cons, Bool.false_eq_true, if_false]
        omega
    | @comeBack t held ops ht =>
        refine work_replace (h.named t (by rw [ht]; simp)) rfl ?_
        rw [ht]
        simp only [List.length_cons, Bool.false_eq_true, if_false]
        omega
    | @take t held l m ops ht hc ha =>
        refine work_replace (h.named t (by rw [ht]; simp)) rfl ?_
        rw [ht]
        simp only [List.length_cons, if_true, Bool.false_eq_true, if_false]
        omega

/-- All tasks are through, and no lock is held. -/
def Finished (s : State τ L) : Prop := ∀ t, (s.tasks t).rest = [] ∧ (s.tasks t).held = []

/-- The tasks of a machine are held up by calls alone: its runs are bounded; in each state of a run,
whoever is not through waits in the end for a task that can go on or is in a call; where nothing can
move unless a call returns, he waits in the end for a call; and the run can be continued, with the
calls returning, until all tasks are through and have given back their locks. -/
def HeldUpByCalls (names : List τ) (M : Machine (State τ L) (Event τ) Empty) : Prop :=
  ∀ (es : List (Event τ)) (s : State τ L) (tr : List Empty), M.exec es = some (s, tr) →
    es.length ≤ work names M.init ∧
      (∀ t, (s.tasks t).rest ≠ [] →
        ∃ u, Relation.ReflTransGen (Blocks s) t u ∧ (Free s u ∨ InCall s u)) ∧
      ((∃ e r, (∀ t, e ≠ .returns t) ∧ M.step s e = some r) ∨
        ∀ t, (s.tasks t).rest ≠ [] → ∃ u, Relation.ReflTransGen (Blocks s) t u ∧ InCall s u) ∧
      ∃ es' s' tr', M.execFrom s es' = some (s', tr') ∧ Finished s'

/-- The tasks of a machine never get stuck: its runs are bounded; in each state of a run, whoever is
not through waits in the end for a task that can go on; and every run can be continued until all
tasks are through and have given back their locks. -/
def NeverStuck (names : List τ) (M : Machine (State τ L) (Event τ) Empty) : Prop :=
  ∀ (es : List (Event τ)) (s : State τ L) (tr : List Empty), M.exec es = some (s, tr) →
    es.length ≤ work names M.init ∧
      (∀ t, (s.tasks t).rest ≠ [] → ∃ u, Relation.ReflTransGen (Blocks s) t u ∧ Free s u) ∧
      ∃ es' s' tr', M.execFrom s es' = some (s', tr') ∧ Finished s'

/-- **No schedule gets stuck but in calls.**  Programs that take locks in order are held up by calls
alone. -/
theorem heldUpByCalls (hprograms : ∀ t, after rank [] (programs t) = some [])
    (hnames : ∀ t, programs t ≠ [] → t ∈ names) (hlive : Live admits) {bound : ℕ}
    (hbound : ∀ l, rank l < bound) : HeldUpByCalls names (machine names admits programs) := by
  intro es s tr h
  have h0 : Ordered rank names (machine names admits programs).init :=
    ordered_init hprograms hnames
  have hspends : Machine.Spends (machine names admits programs) (Ordered rank names)
      (fun _ => True) (work names) := spends
  obtain ⟨hord, hle⟩ := hspends.length_le h0 (fun _ _ => trivial) h
  have hgo : ∀ s, Ordered rank names s →
      (Ordered rank names s ∧ ∀ t, (s.tasks t).rest = []) ∨
        ∃ e s' o, True ∧ (machine names admits programs).step s e = some (s', o) := by
    intro s hs
    by_cases hall : ∀ t, (s.tasks t).rest = []
    · exact .inl ⟨hs, hall⟩
    · obtain ⟨t, ht⟩ := not_forall.mp hall
      obtain ⟨e, s', hstep⟩ := hs.goes_on hlive hbound ht
      exact .inr ⟨e, s', [], trivial, by simp [machine, hstep]⟩
  have hcalls : (∃ e r, (∀ t, e ≠ .returns t) ∧ (machine names admits programs).step s e = some r) ∨
      ∀ t, (s.tasks t).rest ≠ [] → ∃ u, Relation.ReflTransGen (Blocks s) t u ∧ InCall s u := by
    by_cases hfree : ∃ u, Free s u
    · obtain ⟨u, hu⟩ := hfree
      obtain ⟨e, s', he, hstep⟩ := hord.free_moves hlive hu
      exact .inl ⟨e, (s', []), he, by simp [machine, hstep]⟩
    · refine .inr fun t ht => ?_
      obtain ⟨u, hu, hend⟩ := hord.chain_ends hbound ht
      exact ⟨u, hu, hend.resolve_left fun hf => hfree ⟨u, hf⟩⟩
  obtain ⟨es', s', tr', -, hrun, hord', hall⟩ := hspends.finishes hgo hord
  refine ⟨Nat.le_of_add_right_le hle, fun t ht => hord.chain_ends hbound ht, hcalls,
    es', s', tr', hrun, fun t => ⟨hall t, ?_⟩⟩
  have hd := hord'.disciplined t
  rw [hall t] at hd
  exact Option.some.inj hd

/-- **No schedule gets stuck.**  Programs without calls that take locks in order never do. -/
theorem neverStuck (hprograms : ∀ t, after rank [] (programs t) = some [])
    (hcalls : ∀ t, .call ∉ programs t) (hnames : ∀ t, programs t ≠ [] → t ∈ names)
    (hlive : Live admits) {bound : ℕ} (hbound : ∀ l, rank l < bound) :
    NeverStuck names (machine names admits programs) := by
  intro es s tr h
  obtain ⟨hle, hchain, -, hfinish⟩ := heldUpByCalls hprograms hnames hlive hbound es s tr h
  have hnone : ∀ t, .call ∉ (s.tasks t).rest := by
    refine Machine.invariant (I := fun s _ => ∀ t, .call ∉ (s.tasks t).rest)
      (machine names admits programs) hcalls (fun s tr e s' o hi hs => ?_) h
    obtain ⟨s₁, hstep, he⟩ := Option.map_eq_some_iff.mp hs
    obtain ⟨rfl, -⟩ := Prod.mk.inj he
    exact (move_of_step hstep).no_calls hi
  refine ⟨hle, fun t ht => ?_, hfinish⟩
  obtain ⟨u, hu, hfree | ⟨ops, hops⟩⟩ := hchain t ht
  · exact ⟨u, hu, hfree⟩
  · exact absurd (hops ▸ List.mem_cons_self) (hnone u)

end Run

/-! ### The sections of a run -/

section Sections

variable {σ ε ο : Type*}

/-- The operations of one task in a run of a machine whose steps are sections of tasks. -/
def program (M : Machine σ ε ο) (task : ε → τ) (ops : σ → ε → List (Op L)) (t : τ) :
    σ → List ε → List (Op L)
  | _, [] => []
  | s, e :: es =>
      (if task e = t then ops s e else []) ++
        match M.step s e with
        | some (s', _) => program M task ops t s' es
        | none => []

variable {M : Machine σ ε ο} {task : ε → τ} {ops : σ → ε → List (Op L)} {rank : L → ℕ}

/-- Sections that keep the order make programs that do. -/
theorem balanced_program (hops : ∀ s e, Balanced rank 0 (ops s e)) (t : τ) (s : σ) (es : List ε) :
    Balanced rank 0 (program M task ops t s es) := by
  induction es generalizing s with
  | nil => exact .nil
  | cons e es ih =>
      rw [program]
      refine Balanced.append ?_ ?_
      · split
        · exact hops s e
        · exact .nil
      · split
        · exact ih _
        · exact .nil

omit [DecidableEq L] in
/-- The tasks of a run are those of its events. -/
theorem mem_of_program {t : τ} {s : σ} {es : List ε} (h : program M task ops t s es ≠ []) :
    t ∈ es.map task := by
  induction es generalizing s with
  | nil => exact absurd rfl h
  | cons e es ih =>
      rw [List.map_cons, List.mem_cons]
      by_cases he : task e = t
      · exact .inl he.symm
      · rw [program, if_neg he, List.nil_append] at h
        split at h
        · exact .inr (ih h)
        · exact absurd rfl h

/-- The lock operations of the tasks of a run. -/
def lockMachine (M : Machine σ ε ο) (task : ε → τ) (ops : σ → ε → List (Op L))
    (admits : Admits τ L) (es : List ε) : Machine (State τ L) (Event τ) Empty :=
  machine (es.map task) admits fun t => program M task ops t M.init es

omit [DecidableEq L] in
/-- Sections without calls make programs without calls. -/
theorem no_calls_of_program (hops : ∀ s e, .call ∉ ops s e) (t : τ) (s : σ) (es : List ε) :
    .call ∉ program M task ops t s es := by
  induction es generalizing s with
  | nil => exact List.not_mem_nil
  | cons e es ih =>
      rw [program, List.mem_append, not_or]
      constructor
      · split
        · exact hops s e
        · exact List.not_mem_nil
      · split
        · exact ih _
        · exact List.not_mem_nil

/-- **Runs of sections.**  If every section keeps the order, the tasks of a run are held up by calls
alone, in whatever order they ask for the locks. -/
theorem sections_heldUpByCalls (M : Machine σ ε ο) (hops : ∀ s e, Balanced rank 0 (ops s e))
    {admits : Admits τ L} (hlive : Live admits) {bound : ℕ} (hbound : ∀ l, rank l < bound)
    (es : List ε) : HeldUpByCalls (es.map task) (lockMachine M task ops admits es) :=
  heldUpByCalls (fun t => (balanced_program hops t M.init es).after_nil)
    (fun _ h => mem_of_program h) hlive hbound

/-- If every section keeps the order and none makes a call, the tasks of a run never get stuck. -/
theorem sections_neverStuck (M : Machine σ ε ο) (hops : ∀ s e, Balanced rank 0 (ops s e))
    (hcalls : ∀ s e, .call ∉ ops s e) {admits : Admits τ L} (hlive : Live admits) {bound : ℕ}
    (hbound : ∀ l, rank l < bound) (es : List ε) :
    NeverStuck (es.map task) (lockMachine M task ops admits es) :=
  neverStuck (fun t => (balanced_program hops t M.init es).after_nil)
    (fun t => no_calls_of_program hcalls t M.init es) (fun _ h => mem_of_program h) hlive hbound

end Sections

end Fproxy.Locks
