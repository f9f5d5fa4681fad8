import Mathlib.Data.List.Forall2

/-!
# Computations that can fail

Inversion of `Except` computations: a sequence succeeds if and only if its parts do, in order.

* **`bind_eq_ok`** — one step after another.
* **`mapM_eq_ok`**, `forall_mem_iff` — one step for each element of a list.
-/

namespace Fproxy.Fallible

variable {ε α β : Type}

theorem bind_eq_ok {x : Except ε α} {f : α → Except ε β} {b : β} :
    (x >>= f) = .ok b ↔ ∃ a, x = .ok a ∧ f a = .ok b := by
  cases x with
  | error e =>
      constructor
      · intro h
        exact absurd h (by rintro ⟨⟩)
      · rintro ⟨a, h, -⟩
        exact absurd h (by rintro ⟨⟩)
  | ok a =>
      constructor
      · intro h
        exact ⟨a, rfl, h⟩
      · rintro ⟨a', h, hf⟩
        rw [Except.ok.inj h]
        exact hf

theorem map_eq_ok {x : Except ε α} {f : α → β} {b : β} :
    x.map f = .ok b ↔ ∃ a, x = .ok a ∧ f a = b := by
  cases x with
  | error e => simp [Except.map]
  | ok a => simp [Except.map]

/-- What follows a step may read a part of its result only. -/
theorem bind_congr_of_map {γ : Type} {x y : Except ε α} {g : α → γ} {f : α → Except ε β}
    (hxy : x.map g = y.map g) (hf : ∀ a a', g a = g a' → f a = f a') :
    (x >>= f) = (y >>= f) := by
  cases x with
  | error e =>
      cases y with
      | error e' => rw [Except.error.inj hxy]
      | ok a' => exact absurd hxy (by rintro ⟨⟩)
  | ok a =>
      cases y with
      | error e' => exact absurd hxy (by rintro ⟨⟩)
      | ok a' => exact hf a a' (Except.ok.inj hxy)

theorem map_bind {γ : Type} (x : Except ε α) (f : α → Except ε β) (g : β → γ) :
    (x >>= f).map g = x >>= fun a => (f a).map g := by
  cases x <;> rfl

/-- **A list of steps succeeds if and only if each of them does.** -/
theorem mapM_eq_ok {f : α → Except ε β} {l : List α} {bs : List β} :
    l.mapM f = .ok bs ↔ List.Forall₂ (fun a b => f a = .ok b) l bs := by
  induction l generalizing bs with
  | nil =>
      rw [List.mapM_nil, List.forall₂_nil_left_iff]
      constructor
      · intro h
        exact (Except.ok.inj h).symm
      · rintro rfl
        rfl
  | cons a l ih =>
      rw [List.mapM_cons, bind_eq_ok, List.forall₂_cons_left_iff]
      constructor
      · rintro ⟨b, hb, h⟩
        obtain ⟨rest, hrest, h⟩ := bind_eq_ok.mp h
        exact ⟨b, rest, hb, ih.mp hrest, (Except.ok.inj h).symm⟩
      · rintro ⟨b, rest, hb, hrest, rfl⟩
        exact ⟨b, hb, bind_eq_ok.mpr ⟨rest, ih.mpr hrest, rfl⟩⟩

/-- A property of the elements of a list is read off the results of its steps. -/
theorem forall_mem_iff {R : α → β → Prop} {P : α → Prop} {Q : β → Prop} {l : List α} {bs : List β}
    (h : List.Forall₂ R l bs) (hPQ : ∀ a b, R a b → (Q b ↔ P a)) :
    (∀ b ∈ bs, Q b) ↔ ∀ a ∈ l, P a := by
  induction h with
  | nil => simp
  | cons hab _ ih =>
      rw [List.forall_mem_cons, List.forall_mem_cons, ih, hPQ _ _ hab]

end Fproxy.Fallible
