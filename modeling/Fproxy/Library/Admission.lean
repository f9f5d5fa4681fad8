import Mathlib.Data.Set.Insert
import Mathlib.Data.List.Count
import Mathlib.Tactic.Common

/-!
# Admission filters: what "at most once" means

The specification of a duplicate filter over an arbitrary type.  A `History` remembers every
element ever accepted and a set of elements it has retired unseen.  An offer is admitted exactly
when the element is neither accepted nor retired; admitting it may retire more elements, and
nothing is ever un-retired.

* `Offers xs h` — the offers `xs`, each with its verdict, lead from the empty history to `h`.
* `Offers.not_admits_of_mem` — an element that was offered before is not admitted again.
* `Offers.admits_of_fresh` — an element that was never offered and is not retired is admitted.
* `Offer.stays_rejected` — a rejected element is rejected for ever.

An implementation is free to forget accepted elements as long as it retires them.
-/

namespace Fproxy.Admission

variable {α : Type*}

/-- Everything a filter has accepted so far, and what it will never accept any more. -/
structure History (α : Type*) where
  accepted : Set α
  retired : Set α

namespace History

/-- The history before the first offer. -/
def empty : History α := ⟨∅, ∅⟩

/-- The filter lets `x` pass next. -/
def Admits (h : History α) (x : α) : Prop := x ∉ h.accepted ∧ x ∉ h.retired

end History

/-- One offer with its verdict (`true` when admitted) and the history after it. -/
inductive Offer : History α → α → Bool → History α → Prop
  | accept {h : History α} {x : α} {r : Set α} :
      h.Admits x → h.retired ⊆ r → Offer h x true ⟨insert x h.accepted, r⟩
  | reject {h : History α} {x : α} : ¬ h.Admits x → Offer h x false h

/-- The offers made since the empty history, oldest first. -/
inductive Offers : List (α × Bool) → History α → Prop
  | nil : Offers [] History.empty
  | snoc {xs : List (α × Bool)} {h h' : History α} {x : α} {b : Bool} :
      Offers xs h → Offer h x b h' → Offers (xs ++ [(x, b)]) h'

/-- Once rejected, always rejected. -/
theorem Offer.stays_rejected {h h' : History α} {x y : α} {b : Bool} (ho : Offer h y b h')
    (hx : ¬ h.Admits x) : ¬ h'.Admits x := by
  cases ho with
  | reject _ => exact hx
  | accept _ hr =>
      rintro ⟨hacc, hret⟩
      exact hx ⟨fun hm => hacc (Set.mem_insert_of_mem _ hm), fun hm => hret (hr hm)⟩

/-- Admitting an element rejects it from then on. -/
theorem Offer.not_admits_self {h h' : History α} {x : α} {b : Bool} (ho : Offer h x b h') :
    ¬ h'.Admits x := by
  cases ho with
  | reject hx => exact hx
  | accept _ _ => exact fun ha => ha.1 (Set.mem_insert _ _)

/-- The accepted elements are those some offer admitted. -/
theorem Offers.mem_accepted {xs : List (α × Bool)} {h : History α} (ho : Offers xs h) {x : α} :
    x ∈ h.accepted ↔ (x, true) ∈ xs := by
  induction ho with
  | nil => simp [History.empty]
  | snoc _ hoff ih =>
      cases hoff with
      | reject _ => simp [ih]
      | accept _ _ => simp [ih, or_comm]

/-- Whatever was offered before is rejected now. -/
theorem Offers.not_admits_of_mem {xs : List (α × Bool)} {h : History α} (ho : Offers xs h)
    {x : α} {b : Bool} (hx : (x, b) ∈ xs) : ¬ h.Admits x := by
  induction ho with
  | nil => simp at hx
  | snoc _ hoff ih =>
      rcases List.mem_append.mp hx with hx | hx
      · exact hoff.stays_rejected (ih hx)
      · simp only [List.mem_singleton, Prod.mk.injEq] at hx
        rw [hx.1]
        exact hoff.not_admits_self

/-- An element never offered before passes unless it was retired. -/
theorem Offers.admits_of_fresh {xs : List (α × Bool)} {h : History α} (ho : Offers xs h)
    {x : α} (hx : x ∉ xs.map Prod.fst) (hr : x ∉ h.retired) : h.Admits x := by
  refine ⟨fun hacc => hx ?_, hr⟩
  exact List.mem_map.mpr ⟨(x, true), ho.mem_accepted.mp hacc, rfl⟩

end Fproxy.Admission
