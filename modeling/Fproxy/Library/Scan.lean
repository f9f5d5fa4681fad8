import Mathlib.Data.List.Basic
import Mathlib.Data.List.DropRight

/-!
# Scanning a text for a delimiter

A parser that works with indices looks for the first or the last occurrence of a delimiter and
slices the text there.  This file turns such an index back into the two parts it separates.

* **`idxOf_eq_some`**, **`rfind_eq_some`** — the index found is the length of the part before the
  first (last) delimiter.
* `last_unique`, `first_unique` — the parts are determined by the text.
-/

namespace Fproxy.Scan

variable {α : Type*} [DecidableEq α]

/-- The index of the last occurrence of `a`. -/
def rfind (a : α) : List α → Option ℕ
  | [] => none
  | x :: l =>
      match rfind a l with
      | some i => some (i + 1)
      | none => if x = a then some 0 else none

/-- A text with the elements of `p` removed from both ends. -/
def trim (p : α → Bool) (l : List α) : List α := (l.dropWhile p).rdropWhile p

theorem rfind_eq_none {a : α} {l : List α} : rfind a l = none ↔ a ∉ l := by
  induction l with
  | nil => simp [rfind]
  | cons x l ih =>
      unfold rfind
      cases h : rfind a l with
      | some i =>
          have hmem : a ∈ l := by
            by_contra hn
            rw [ih.mpr hn] at h
            exact absurd h (by simp)
          simp [hmem]
      | none =>
          have hn : a ∉ l := ih.mp h
          by_cases hx : x = a
          · simp [hx]
          · simp [hx, hn, Ne.symm hx]

/-- **The last occurrence** separates the text from a part without the delimiter. -/
theorem rfind_eq_some {a : α} {l : List α} {i : ℕ} :
    rfind a l = some i ↔ ∃ pre post, l = pre ++ a :: post ∧ a ∉ post ∧ pre.length = i := by
  induction l generalizing i with
  | nil => simp [rfind]
  | cons x l ih =>
      unfold rfind
      constructor
      · intro h
        cases hl : rfind a l with
        | some j =>
            obtain ⟨pre, post, hsplit, hpost, hlen⟩ := ih.mp hl
            have hi : j + 1 = i := by simpa [hl] using h
            exact ⟨x :: pre, post, by rw [hsplit, List.cons_append], hpost, by
              rw [List.length_cons, hlen, hi]⟩
        | none =>
            rw [hl] at h
            by_cases hx : x = a
            · have hi : i = 0 := by simpa [hx] using h.symm
              exact ⟨[], l, by rw [hx, List.nil_append], rfind_eq_none.mp hl, hi.symm⟩
            · simp [hx] at h
      · rintro ⟨pre, post, hsplit, hpost, hlen⟩
        cases pre with
        | nil =>
            obtain ⟨rfl, rfl⟩ := List.cons.inj hsplit
            have hnone : rfind x l = none := rfind_eq_none.mpr hpost
            have hi : i = 0 := hlen.symm
            simp [hnone, hi]
        | cons y pre =>
            obtain ⟨rfl, htail⟩ := List.cons.inj hsplit
            have hl : rfind a l = some pre.length := ih.mpr ⟨pre, post, htail, hpost, rfl⟩
            rw [hl, ← hlen, List.length_cons]

/-- **The first occurrence** separates a part without the delimiter from the text. -/
theorem idxOf_eq_some {a : α} {l : List α} {i : ℕ} :
    l.idxOf? a = some i ↔ ∃ pre post, l = pre ++ a :: post ∧ a ∉ pre ∧ pre.length = i := by
  induction l generalizing i with
  | nil => simp
  | cons x l ih =>
      rw [List.idxOf?_cons]
      by_cases hx : x = a
      · subst hx
        simp only [BEq.rfl, if_true, Option.some.injEq]
        constructor
        · intro h
          exact ⟨[], l, rfl, List.not_mem_nil, h⟩
        · rintro ⟨pre, post, hsplit, hpre, hlen⟩
          cases pre with
          | nil => exact hlen
          | cons y pre =>
              obtain ⟨rfl, -⟩ := List.cons.inj hsplit
              exact absurd List.mem_cons_self hpre
      · rw [if_neg (by simpa using hx)]
        constructor
        · intro h
          obtain ⟨j, hj, hi⟩ := Option.map_eq_some_iff.mp h
          obtain ⟨pre, post, hsplit, hpre, hlen⟩ := ih.mp hj
          refine ⟨x :: pre, post, by rw [hsplit, List.cons_append], ?_, ?_⟩
          · simp [hpre, Ne.symm hx]
          · rw [List.length_cons, hlen, hi]
        · rintro ⟨pre, post, hsplit, hpre, hlen⟩
          cases pre with
          | nil => exact absurd (List.cons.inj hsplit).1 hx
          | cons y pre =>
              obtain ⟨rfl, htail⟩ := List.cons.inj hsplit
              have hl : l.idxOf? a = some pre.length :=
                ih.mpr ⟨pre, post, htail, fun h => hpre (List.mem_cons_of_mem _ h), rfl⟩
              rw [hl, ← hlen, List.length_cons, Option.map_some]

/-- The part behind the last delimiter, and the part before it, are determined. -/
theorem last_unique {a : α} {pre pre' post post' : List α}
    (h : pre ++ a :: post = pre' ++ a :: post') (hpost : a ∉ post) (hpost' : a ∉ post') :
    pre = pre' ∧ post = post' := by
  have hi : rfind a (pre ++ a :: post) = some pre.length :=
    rfind_eq_some.mpr ⟨pre, post, rfl, hpost, rfl⟩
  have hi' : rfind a (pre ++ a :: post) = some pre'.length :=
    rfind_eq_some.mpr ⟨pre', post', h, hpost', rfl⟩
  have hlen : pre.length = pre'.length := Option.some.inj (hi.symm.trans hi')
  obtain ⟨hpre, hrest⟩ := List.append_inj h hlen
  exact ⟨hpre, (List.cons.inj hrest).2⟩

/-- The part before the first delimiter, and the part behind it, are determined. -/
theorem first_unique {a : α} {pre pre' post post' : List α}
    (h : pre ++ a :: post = pre' ++ a :: post') (hpre : a ∉ pre) (hpre' : a ∉ pre') :
    pre = pre' ∧ post = post' := by
  have hi : (pre ++ a :: post).idxOf? a = some pre.length :=
    idxOf_eq_some.mpr ⟨pre, post, rfl, hpre, rfl⟩
  have hi' : (pre ++ a :: post).idxOf? a = some pre'.length :=
    idxOf_eq_some.mpr ⟨pre', post', h, hpre', rfl⟩
  have hlen : pre.length = pre'.length := Option.some.inj (hi.symm.trans hi')
  obtain ⟨hsame, hrest⟩ := List.append_inj h hlen
  exact ⟨hsame, (List.cons.inj hrest).2⟩

end Fproxy.Scan
