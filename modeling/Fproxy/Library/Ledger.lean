import Mathlib.Data.List.Count
import Mathlib.Data.List.Nodup
import Mathlib.Logic.Function.Basic
import Mathlib.Tactic.Common

/-!
# Ledgers: work that is admitted once is delivered once

Several tasks share one admission filter.  A task asks the filter about a key; when the key is
admitted the task holds it for some steps and then delivers it.  Other tasks may move in between.
The `Ledger` records who holds what, what was admitted and what was delivered.

* `Move` — the moves of such a system: whatever the tasks do, a key enters the ledger only once,
  and only its holder delivers it.
* `Sound` — the invariant: a held key has one holder and is undelivered, and no key is lost.
* `Sound.move`, `Sound.nodup`, `Sound.delivered_of_admitted` — the step rule and what it is for.
-/

namespace Fproxy

/-- Who holds which key, and the keys admitted and delivered so far. -/
structure Ledger (τ κ : Type*) where
  pending : τ → Option κ
  admitted : List κ
  delivered : List κ

namespace Ledger

variable {τ κ : Type*}

/-- One move of one task. -/
inductive Move [DecidableEq τ] (L : Ledger τ κ) : Ledger τ κ → Prop
  /-- Nothing the ledger sees. -/
  | stay : Move L L
  /-- The filter admits a key it never admitted before, for a task that holds none. -/
  | enter {t : τ} {k : κ} : L.pending t = none → k ∉ L.admitted →
      Move L ⟨Function.update L.pending t (some k), L.admitted ++ [k], L.delivered⟩
  /-- The task delivers what it holds. -/
  | deliver {t : τ} {k : κ} : L.pending t = some k →
      Move L ⟨Function.update L.pending t none, L.admitted, L.delivered ++ [k]⟩

/-- The invariant of every ledger that started empty. -/
structure Sound (L : Ledger τ κ) : Prop where
  held : ∀ t k, L.pending t = some k → k ∈ L.admitted ∧ k ∉ L.delivered
  holder : ∀ t t' k, L.pending t = some k → L.pending t' = some k → t = t'
  settled : ∀ k ∈ L.delivered, k ∈ L.admitted
  kept : ∀ k ∈ L.admitted, k ∈ L.delivered ∨ ∃ t, L.pending t = some k
  nodup : L.delivered.Nodup

/-- The ledger before the first move. -/
theorem sound_empty : Sound (⟨fun _ => none, [], []⟩ : Ledger τ κ) where
  held := fun _ _ h => absurd h (by simp)
  holder := fun _ _ _ h => absurd h (by simp)
  settled := fun _ h => absurd h List.not_mem_nil
  kept := fun _ h => absurd h List.not_mem_nil
  nodup := List.nodup_nil

/-- When nobody holds a key, everything admitted was delivered. -/
theorem Sound.delivered_of_admitted {L : Ledger τ κ} (hs : Sound L) {k : κ}
    (hk : k ∈ L.admitted) (hfree : ∀ t, L.pending t ≠ some k) : k ∈ L.delivered :=
  (hs.kept k hk).resolve_right fun ⟨t, ht⟩ => hfree t ht

variable [DecidableEq τ]

/-- What is held after one task lets go was held before, by another task. -/
theorem held_of_release {p : τ → Option κ} {t t' : τ} {k : κ}
    (h : Function.update p t none t' = some k) : t' ≠ t ∧ p t' = some k := by
  by_cases he : t' = t
  · rw [he, Function.update_self] at h
    exact absurd h (by simp)
  · exact ⟨he, (Function.update_of_ne he _ _).symm.trans h⟩

/-- What is held after one task takes a key: by that task the key, by the others what they
held. -/
theorem held_of_take {p : τ → Option κ} {t t' : τ} {k k' : κ}
    (h : Function.update p t (some k) t' = some k') :
    t' = t ∧ k' = k ∨ t' ≠ t ∧ p t' = some k' := by
  by_cases he : t' = t
  · rw [he, Function.update_self] at h
    exact Or.inl ⟨he, (Option.some.inj h).symm⟩
  · exact Or.inr ⟨he, (Function.update_of_ne he _ _).symm.trans h⟩

/-- **The step rule.** -/
theorem Sound.move {L L' : Ledger τ κ} (hs : Sound L) (hm : Move L L') : Sound L' := by
  cases hm with
  | stay => exact hs
  | @enter t k hidle hnew =>
      refine ⟨fun t' k' h => ?_, fun t₁ t₂ k' h₁ h₂ => ?_, fun k' h => ?_, fun k' h => ?_, hs.nodup⟩
      · rcases held_of_take h with ⟨_, rfl⟩ | ⟨_, hold⟩
        · exact ⟨List.mem_append_right _ (List.mem_singleton_self _),
            fun hd => hnew (hs.settled _ hd)⟩
        · exact ⟨List.mem_append_left _ (hs.held t' k' hold).1, (hs.held t' k' hold).2⟩
      · -- a key held before was admitted before, so it is not the new one
        rcases held_of_take h₁ with ⟨rfl, rfl⟩ | ⟨_, hold₁⟩ <;>
          rcases held_of_take h₂ with ⟨rfl, hk⟩ | ⟨_, hold₂⟩
        · rfl
        · exact absurd (hs.held t₂ k' hold₂).1 hnew
        · exact absurd (hs.held t₁ k' hold₁).1 (hk ▸ hnew)
        · exact hs.holder t₁ t₂ k' hold₁ hold₂
      · exact List.mem_append_left _ (hs.settled k' h)
      · rcases List.mem_append.mp h with h | h
        · refine (hs.kept k' h).imp_right fun ⟨t', ht'⟩ => ⟨t', ?_⟩
          have hne : t' ≠ t := by
            intro he
            rw [he, hidle] at ht'
            exact absurd ht' (by simp)
          exact (Function.update_of_ne hne _ _).trans ht'
        · rw [List.mem_singleton.mp h]
          exact Or.inr ⟨t, Function.update_self _ _ _⟩
  | @deliver t k hk =>
      refine ⟨fun t' k' h => ?_, fun t₁ t₂ k' h₁ h₂ => ?_, fun k' h => ?_, fun k' h => ?_, ?_⟩
      · obtain ⟨hne, hold⟩ := held_of_release h
        refine ⟨(hs.held t' k' hold).1, fun hd => ?_⟩
        rcases List.mem_append.mp hd with hd | hd
        · exact (hs.held t' k' hold).2 hd
        · rw [List.mem_singleton.mp hd] at hold
          exact hne (hs.holder t' t k hold hk)
      · exact hs.holder t₁ t₂ k' (held_of_release h₁).2 (held_of_release h₂).2
      · rcases List.mem_append.mp h with hd | hd
        · exact hs.settled k' hd
        · rw [List.mem_singleton.mp hd]
          exact (hs.held t k hk).1
      · rcases hs.kept k' h with hd | ⟨t', ht'⟩
        · exact Or.inl (List.mem_append_left _ hd)
        · by_cases he : t' = t
          · rw [he, hk] at ht'
            rw [← Option.some.inj ht']
            exact Or.inl (List.mem_append_right _ (List.mem_singleton_self _))
          · exact Or.inr ⟨t', (Function.update_of_ne he _ _).trans ht'⟩
      · refine List.Nodup.append hs.nodup (List.nodup_singleton k) ?_
        rw [List.disjoint_singleton]
        exact (hs.held t k hk).2

end Ledger

end Fproxy
