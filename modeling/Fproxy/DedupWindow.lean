import Mathlib.Data.Finset.Card
import Mathlib.Order.Interval.Finset.Nat
import Fproxy.Library.Admission

/-!
# The sliding deduplication window

`DedupWindow` of the server and `ResponseDedupWindow` of the client: a set of remembered
sequence numbers, the lowest and highest of interest, and a size.  A number below `minSeq` or
remembered is a duplicate; any other is remembered, and a number above `maxSeq` that finds more
than `size` numbers remembered slides the lower bound up to `size` below itself.

* `Wf` is the invariant of every window the code builds.
* `newMin_eq` — a slide computes the lower bound without wrap-around, and strictly raises it.
* `Realises d h` — the window realises an admission history: what it forgets it has retired.
  `Realises.isDuplicate` is the step, so the abstract rules of the library apply to the window.
* `Tracks d xs` — what the window knows after the calls `xs`; `Tracks.rejects_of_mem` and
  `Tracks.not_rejects` say which numbers it lets through.
-/

namespace Fproxy

open Fproxy.Admission

/-- `DedupWindow`: `seen` is a `HashMap<u32, ()>`, that is a set. -/
structure DedupWindow where
  seen : Finset UInt32
  minSeq : UInt32
  maxSeq : UInt32
  size : ℕ
  started : Bool
  deriving DecidableEq

/-- `u32::saturating_sub`. -/
def saturatingSub (a b : UInt32) : UInt32 := if b ≤ a then a - b else 0

namespace DedupWindow

/-- `DedupWindow::new`. -/
def new (size : ℕ) : DedupWindow := ⟨∅, 0, 0, size, false⟩

/-- `DedupWindow::is_duplicate`: the verdict and the window after the call. -/
def isDuplicate (d : DedupWindow) (seq : UInt32) : Bool × DedupWindow :=
  if d.started = false then
    (false, { d with
      started := true, minSeq := seq, maxSeq := seq, seen := insert seq d.seen })
  else if seq ∈ d.seen then (true, d)
  else if seq < d.minSeq then (true, d)
  else
    let seen := insert seq d.seen
    if d.maxSeq < seq then
      if d.size < seen.card then
        -- `self.size as u32` truncates, the subtraction of 1 is 32 bits wide
        let newMin := saturatingSub seq (UInt32.ofNat d.size - 1)
        (false, { d with
          maxSeq := seq, seen := seen.filter (newMin ≤ ·), minSeq := newMin })
      else (false, { d with maxSeq := seq, seen := seen })
    else (false, { d with seen := seen })

end DedupWindow

/-- `ResponseDedupWindow` of the client repeats the server's window word for word. -/
abbrev ResponseDedupWindow := DedupWindow

/-- `ResponseDedupWindow::is_duplicate`. -/
abbrev ResponseDedupWindow.isDuplicate (d : ResponseDedupWindow) (seq : UInt32) :
    Bool × ResponseDedupWindow :=
  DedupWindow.isDuplicate d seq

namespace DedupWindow

/-! ### Order on 32-bit numbers, through their values -/

theorem not_lt_toNat {a b : UInt32} : ¬ a < b ↔ b.toNat ≤ a.toNat := by
  rw [UInt32.lt_iff_toNat_lt, Nat.not_lt]

theorem toNat_saturatingSub (a b : UInt32) :
    (saturatingSub a b).toNat = a.toNat - b.toNat := by
  unfold saturatingSub
  split
  · next h => exact UInt32.toNat_sub_of_le a b h
  · next h =>
      have hlt : a.toNat < b.toNat := by
        rw [UInt32.le_iff_toNat_le] at h
        omega
      have h0 : (0 : UInt32).toNat = 0 := rfl
      omega

/-- Distinct 32-bit numbers between two bounds are at most as many as the bounds allow. -/
theorem card_le_of_bounds (s : Finset UInt32) (lo hi : ℕ)
    (h : ∀ x ∈ s, lo ≤ x.toNat ∧ x.toNat ≤ hi) : s.card ≤ hi + 1 - lo := by
  have hmap : s.card ≤ (Finset.Icc lo hi).card := by
    apply Finset.card_le_card_of_injOn UInt32.toNat
    · intro x hx
      exact Finset.mem_Icc.mpr (h x hx)
    · intro x _ y _ hxy
      exact UInt32.toNat_inj.mp hxy
  simpa using hmap

/-! ### The invariant -/

/-- What every window reached from `new` satisfies. -/
structure Wf (d : DedupWindow) : Prop where
  size_pos : 1 ≤ d.size
  fresh : d.started = false → d.seen = ∅
  bounds : d.started = true → ∀ s ∈ d.seen, d.minSeq.toNat ≤ s.toNat ∧ s.toNat ≤ d.maxSeq.toNat
  max_mem : d.started = true → d.maxSeq ∈ d.seen

theorem wf_new {size : ℕ} (h : 1 ≤ size) : Wf (new size) where
  size_pos := h
  fresh := fun _ => rfl
  bounds := fun hs => absurd hs Bool.false_ne_true
  max_mem := fun hs => absurd hs Bool.false_ne_true

/-- A number the window rejects now. -/
def Rejects (d : DedupWindow) (seq : UInt32) : Prop :=
  d.started = true ∧ (seq ∈ d.seen ∨ seq < d.minSeq)

/-- The lower bound after a slide to `seq`. -/
def newMin (d : DedupWindow) (seq : UInt32) : UInt32 :=
  saturatingSub seq (UInt32.ofNat d.size - 1)

/-- **The slide arithmetic is safe.**  Where it is executed, the size fits 32 bits, nothing
saturates, and the lower bound strictly rises. -/
theorem newMin_eq {d : DedupWindow} (hd : Wf d) {seq : UInt32} (hs : d.started = true)
    (hmin : d.minSeq.toNat ≤ seq.toNat) (hmax : d.maxSeq.toNat < seq.toNat)
    (hcard : d.size < (insert seq d.seen).card) :
    (d.newMin seq).toNat + d.size = seq.toNat + 1 ∧ d.minSeq.toNat < (d.newMin seq).toNat := by
  have hpos := hd.size_pos
  have hin : ∀ x ∈ insert seq d.seen, d.minSeq.toNat ≤ x.toNat ∧ x.toNat ≤ seq.toNat := by
    intro x hx
    rcases Finset.mem_insert.mp hx with rfl | hx
    · exact ⟨hmin, le_refl _⟩
    · have hb := hd.bounds hs x hx
      omega
  have hle := card_le_of_bounds _ _ _ hin
  have hlt : seq.toNat < UInt32.size := seq.toNat_lt_size
  have hsize : (UInt32.ofNat d.size).toNat = d.size :=
    UInt32.toNat_ofNat_of_lt' (by omega)
  have hone : (UInt32.ofNat d.size - 1).toNat = d.size - 1 := by
    rw [UInt32.toNat_sub_of_le _ _ (by rw [UInt32.le_iff_toNat_le, hsize]; exact hpos), hsize]
    rfl
  have hval : (d.newMin seq).toNat = seq.toNat - (d.size - 1) := by
    rw [newMin, toNat_saturatingSub, hone]
  omega

/-! ### What one call does -/

/-- The four outcomes of a call: the first number, a rejected one, one remembered without a
slide, and one that slides the window. -/
theorem isDuplicate_cases (d : DedupWindow) (seq : UInt32) :
    (d.started = false ∧ d.isDuplicate seq = (false, { d with
        started := true, minSeq := seq, maxSeq := seq, seen := insert seq d.seen })) ∨
    (d.Rejects seq ∧ d.isDuplicate seq = (true, d)) ∨
    (d.started = true ∧ ¬ d.Rejects seq ∧
      (d.maxSeq.toNat < seq.toNat → (insert seq d.seen).card ≤ d.size) ∧
      d.isDuplicate seq = (false, { d with
        maxSeq := if d.maxSeq < seq then seq else d.maxSeq, seen := insert seq d.seen })) ∨
    (d.started = true ∧ ¬ d.Rejects seq ∧ d.maxSeq.toNat < seq.toNat ∧
      d.size < (insert seq d.seen).card ∧
      d.isDuplicate seq = (false, { d with
        maxSeq := seq, minSeq := d.newMin seq,
        seen := (insert seq d.seen).filter (d.newMin seq ≤ ·) })) := by
  by_cases hs : d.started = false
  · exact Or.inl ⟨hs, by simp [isDuplicate, hs]⟩
  have hst : d.started = true := by simpa using hs
  by_cases hmem : seq ∈ d.seen
  · exact Or.inr (Or.inl ⟨⟨hst, Or.inl hmem⟩, by simp [isDuplicate, hst, hmem]⟩)
  by_cases hlow : seq < d.minSeq
  · exact Or.inr (Or.inl ⟨⟨hst, Or.inr hlow⟩, by simp [isDuplicate, hst, hlow]⟩)
  have hacc : ¬ d.Rejects seq := by
    rintro ⟨_, h | h⟩
    · exact hmem h
    · exact hlow h
  right; right
  by_cases hmax : d.maxSeq < seq
  · by_cases hcard : d.size < (insert seq d.seen).card
    · exact Or.inr ⟨hst, hacc, UInt32.lt_iff_toNat_lt.mp hmax, hcard,
        by simp only [isDuplicate, hst, hmem, hlow, hmax, hcard, Bool.true_eq_false, if_true,
          if_false]; rfl⟩
    · exact Or.inl ⟨hst, hacc, fun _ => Nat.not_lt.mp hcard,
        by simp only [isDuplicate, hst, hmem, hlow, hmax, hcard, Bool.true_eq_false, if_true,
          if_false]⟩
  · exact Or.inl ⟨hst, hacc, fun h => absurd (UInt32.lt_iff_toNat_lt.mpr h) hmax,
      by simp [isDuplicate, hst, hmem, hlow, hmax]⟩

theorem not_rejects_of_started {d : DedupWindow} {seq : UInt32} (hs : d.started = true)
    (h : ¬ d.Rejects seq) : seq ∉ d.seen ∧ d.minSeq.toNat ≤ seq.toNat :=
  ⟨fun hm => h ⟨hs, Or.inl hm⟩, not_lt_toNat.mp fun hl => h ⟨hs, Or.inr hl⟩⟩

/-- The verdict: a call answers `true` exactly for a rejected number. -/
theorem isDuplicate_iff (d : DedupWindow) (seq : UInt32) :
    (d.isDuplicate seq).1 = true ↔ d.Rejects seq := by
  rcases d.isDuplicate_cases seq with ⟨hs, he⟩ | ⟨hr, he⟩ | ⟨_, hr, _, he⟩ | ⟨_, hr, _, _, he⟩
  · rw [he]
    exact ⟨fun h => absurd h Bool.false_ne_true, fun h => absurd h.1 (by simp [hs])⟩
  · rw [he]
    exact ⟨fun _ => hr, fun _ => rfl⟩
  · rw [he]
    exact ⟨fun h => absurd h Bool.false_ne_true, fun h => absurd h hr⟩
  · rw [he]
    exact ⟨fun h => absurd h Bool.false_ne_true, fun h => absurd h hr⟩

theorem isDuplicate_of_rejects {d : DedupWindow} {seq : UInt32} (h : d.Rejects seq) :
    d.isDuplicate seq = (true, d) := by
  rcases d.isDuplicate_cases seq with ⟨hs, _⟩ | ⟨_, he⟩ | ⟨_, hr, _⟩ | ⟨_, hr, _⟩
  · exact absurd h.1 (by simp [hs])
  · exact he
  · exact absurd h hr
  · exact absurd h hr

@[simp] theorem isDuplicate_size (d : DedupWindow) (seq : UInt32) :
    (d.isDuplicate seq).2.size = d.size := by
  rcases d.isDuplicate_cases seq with ⟨_, he⟩ | ⟨_, he⟩ | ⟨_, _, _, he⟩ | ⟨_, _, _, _, he⟩ <;>
    rw [he]

@[simp] theorem isDuplicate_started (d : DedupWindow) (seq : UInt32) :
    (d.isDuplicate seq).2.started = true := by
  rcases d.isDuplicate_cases seq with ⟨_, he⟩ | ⟨hr, he⟩ | ⟨hs, _, _, he⟩ | ⟨hs, _, _, _, he⟩
  · rw [he]
  · rw [he]; exact hr.1
  · rw [he]; exact hs
  · rw [he]; exact hs

/-- The invariant is kept by every call. -/
theorem Wf.isDuplicate {d : DedupWindow} (hd : Wf d) (seq : UInt32) :
    Wf (d.isDuplicate seq).2 := by
  rcases d.isDuplicate_cases seq with
    ⟨hs, he⟩ | ⟨_, he⟩ | ⟨hs, hr, _, he⟩ | ⟨hs, hr, hmax, hcard, he⟩
  · rw [he]
    refine ⟨hd.size_pos, fun h => absurd h (by simp), fun _ s hm => ?_, fun _ => by simp⟩
    simp only [hd.fresh hs, Finset.mem_insert, Finset.notMem_empty, or_false] at hm
    rw [hm]
    exact ⟨le_refl _, le_refl _⟩
  · rw [he]
    exact hd
  · rw [he]
    obtain ⟨hnot, hmin⟩ := not_rejects_of_started hs hr
    refine ⟨hd.size_pos, fun h => absurd h (by simp [hs]), fun _ s hm => ?_, fun _ => ?_⟩
    · simp only [Finset.mem_insert] at hm
      rcases hm with rfl | hm
      · refine ⟨hmin, ?_⟩
        split
        · exact le_refl _
        · next h => exact not_lt_toNat.mp h
      · have hb := hd.bounds hs s hm
        refine ⟨hb.1, ?_⟩
        split
        · next h => exact le_trans hb.2 (le_of_lt (UInt32.lt_iff_toNat_lt.mp h))
        · exact hb.2
    · simp only [Finset.mem_insert]
      split
      · exact Or.inl rfl
      · exact Or.inr (hd.max_mem hs)
  · rw [he]
    obtain ⟨hnot, hmin⟩ := not_rejects_of_started hs hr
    have harith := newMin_eq hd hs hmin hmax hcard
    have hpos := hd.size_pos
    refine ⟨hd.size_pos, fun h => absurd h (by simp [hs]), fun _ s hm => ?_, fun _ => ?_⟩
    · simp only [Finset.mem_filter, Finset.mem_insert] at hm
      obtain ⟨hm, hlow⟩ := hm
      refine ⟨UInt32.le_iff_toNat_le.mp hlow, ?_⟩
      rcases hm with rfl | hm
      · exact le_refl _
      · exact le_trans (hd.bounds hs s hm).2 (le_of_lt hmax)
    · simp only [Finset.mem_filter, Finset.mem_insert, true_or, true_and]
      rw [UInt32.le_iff_toNat_le]
      omega

/-- A number above the highest one is new. -/
theorem not_rejects_of_max_lt {d : DedupWindow} (hd : Wf d) {seq : UInt32}
    (h : d.started = true → d.maxSeq.toNat < seq.toNat) : ¬ d.Rejects seq := by
  rintro ⟨hs, hm | hl⟩
  · have hb := hd.bounds hs seq hm
    have hlt := h hs
    omega
  · have hb := hd.bounds hs d.maxSeq (hd.max_mem hs)
    have hlt := h hs
    have hlow := UInt32.lt_iff_toNat_lt.mp hl
    omega

/-! ### The window realises an admission history -/

/-- The window agrees with a history: numbers below the lower bound are retired, and of the
others exactly the accepted ones are remembered. -/
structure Realises (d : DedupWindow) (h : History UInt32) : Prop where
  retired : h.retired = {s | d.started = true ∧ s < d.minSeq}
  fresh : d.started = false → h.accepted = ∅
  seen : d.started = true → ∀ s, ¬ s < d.minSeq → (s ∈ h.accepted ↔ s ∈ d.seen)

theorem Realises.rejects_iff {d : DedupWindow} {h : History UInt32} (hr : Realises d h)
    (s : UInt32) : d.Rejects s ↔ ¬ h.Admits s := by
  simp only [Rejects, History.Admits, hr.retired, Set.mem_ofPred_eq]
  cases hst : d.started with
  | false => simp [hr.fresh hst]
  | true =>
      by_cases hl : s < d.minSeq
      · simp [hl]
      · simp [hl, hr.seen hst s hl]

theorem realises_new (size : ℕ) : Realises (new size) History.empty where
  retired := by simp [History.empty, new]
  fresh := fun _ => rfl
  seen := fun h => absurd h Bool.false_ne_true

/-- **One call is one offer.**  The verdict is the one of the history, and the window after the
call realises the history after the offer. -/
theorem Realises.isDuplicate {d : DedupWindow} {h : History UInt32} (hd : Wf d)
    (hr : Realises d h) (seq : UInt32) :
    ∃ h', Offer h seq (!(d.isDuplicate seq).1) h' ∧ Realises (d.isDuplicate seq).2 h' := by
  have hrej := hr.rejects_iff seq
  rcases d.isDuplicate_cases seq with
    ⟨hs, he⟩ | ⟨hbad, he⟩ | ⟨hs, hgood, _, he⟩ | ⟨hs, hgood, hmax, hcard, he⟩
  · -- the first number starts the window at itself
    have hret : h.retired = ∅ := by simp [hr.retired, hs]
    have hadm : h.Admits seq := by simp [History.Admits, hr.fresh hs, hret]
    refine ⟨⟨insert seq h.accepted, {s | s < seq}⟩, ?_, ?_⟩
    · rw [he]
      exact Offer.accept hadm (by simp [hret])
    · rw [he]
      refine ⟨by simp, fun hf => absurd hf (by simp), fun _ s _ => ?_⟩
      simp [hr.fresh hs, hd.fresh hs]
  · refine ⟨h, ?_, ?_⟩
    · rw [he]
      exact Offer.reject (hrej.mp hbad)
    · rw [he]
      exact hr
  · have hadm : h.Admits seq := not_not.mp fun hn => hgood (hrej.mpr hn)
    refine ⟨⟨insert seq h.accepted, h.retired⟩, ?_, ?_⟩
    · rw [he]
      exact Offer.accept hadm (subset_refl _)
    · rw [he]
      refine ⟨hr.retired, fun hf => absurd hf (by simp [hs]), fun _ s hl => ?_⟩
      simp only [Set.mem_insert_iff, Finset.mem_insert]
      rw [hr.seen hs s hl]
  · have hadm : h.Admits seq := not_not.mp fun hn => hgood (hrej.mpr hn)
    have harith := newMin_eq hd hs (not_rejects_of_started hs hgood).2 hmax hcard
    -- sliding retires the numbers below the new bound, whether they were seen or not
    have hup : ∀ s : UInt32, s < d.minSeq → s < d.newMin seq := by
      intro s hl
      rw [UInt32.lt_iff_toNat_lt] at hl ⊢
      omega
    refine ⟨⟨insert seq h.accepted, {s | s < d.newMin seq}⟩, ?_, ?_⟩
    · rw [he]
      refine Offer.accept hadm ?_
      rw [hr.retired]
      exact fun s hl => hup s hl.2
    · rw [he]
      refine ⟨by simp [hs], fun hf => absurd hf (by simp [hs]), fun _ s hl => ?_⟩
      have hkeep : d.newMin seq ≤ s := by
        rw [UInt32.le_iff_toNat_le]
        exact not_lt_toNat.mp hl
      simp only [Set.mem_insert_iff, Finset.mem_filter, Finset.mem_insert, hkeep, and_true]
      rw [hr.seen hs s fun h => hl (hup s h)]

/-! ### The window after a list of calls -/

/-- What the window knows about the numbers received so far, each with its verdict (`true` when
it was let through). -/
structure Tracks (d : DedupWindow) (xs : List (UInt32 × Bool)) : Prop where
  wf : Wf d
  history : ∃ h, Offers xs h ∧ Realises d h
  started : d.started = true ↔ xs ≠ []
  max_ge : ∀ p ∈ xs, p.1.toNat ≤ d.maxSeq.toNat
  max_mem : d.started = true → ∃ p ∈ xs, p.1 = d.maxSeq
  low : ∀ p, xs.head? = some p →
    d.minSeq = p.1 ∨ d.minSeq.toNat + d.size ≤ d.maxSeq.toNat + 1

theorem tracks_new {size : ℕ} (h : 1 ≤ size) : Tracks (new size) [] where
  wf := wf_new h
  history := ⟨_, Offers.nil, realises_new size⟩
  started := by simp [new]
  max_ge := fun p hp => absurd hp List.not_mem_nil
  max_mem := fun hs => absurd hs Bool.false_ne_true
  low := fun p hp => absurd hp (by simp)

/-- The highest number after a call. -/
theorem isDuplicate_maxSeq {d : DedupWindow} (hd : Wf d) (seq : UInt32) :
    (d.isDuplicate seq).2.maxSeq =
      if d.started = true ∧ ¬ d.maxSeq < seq then d.maxSeq else seq := by
  rcases d.isDuplicate_cases seq with
    ⟨hs, he⟩ | ⟨hr, he⟩ | ⟨hs, _, _, he⟩ | ⟨hs, _, hmax, _, he⟩
  · rw [he]
    simp [hs]
  · -- a rejected number is at most the highest one
    have hle : ¬ d.maxSeq < seq := by
      intro hlt
      exact not_rejects_of_max_lt hd (fun _ => UInt32.lt_iff_toNat_lt.mp hlt) hr
    rw [he]
    simp [hr.1, hle]
  · rw [he]
    by_cases hm : d.maxSeq < seq <;> simp [hs, hm]
  · rw [he]
    simp [hs, UInt32.lt_iff_toNat_lt.mpr hmax]

/-- The lower bound after a call: where it was, or `size` below the highest number. -/
theorem isDuplicate_minSeq {d : DedupWindow} (hd : Wf d) (hs : d.started = true) (seq : UInt32) :
    (d.isDuplicate seq).2.minSeq = d.minSeq ∨
      (d.isDuplicate seq).2.minSeq.toNat + d.size ≤ (d.isDuplicate seq).2.maxSeq.toNat + 1 := by
  rcases d.isDuplicate_cases seq with
    ⟨hn, _⟩ | ⟨_, he⟩ | ⟨_, _, _, he⟩ | ⟨_, hr, hmax, hcard, he⟩
  · exact absurd hs (by simp [hn])
  · exact Or.inl (by rw [he])
  · exact Or.inl (by rw [he])
  · rw [he]
    exact Or.inr (le_of_eq (newMin_eq hd hs (not_rejects_of_started hs hr).2 hmax hcard).1)

/-- The step lemma: one more call, one more received number. -/
theorem Tracks.isDuplicate {d : DedupWindow} {xs : List (UInt32 × Bool)} (ht : Tracks d xs)
    (seq : UInt32) :
    Tracks (d.isDuplicate seq).2 (xs ++ [(seq, !(d.isDuplicate seq).1)]) := by
  have hmax := isDuplicate_maxSeq ht.wf seq
  have hge : seq.toNat ≤ (d.isDuplicate seq).2.maxSeq.toNat ∧
      (d.started = true → d.maxSeq.toNat ≤ (d.isDuplicate seq).2.maxSeq.toNat) := by
    rw [hmax]
    split
    · next h => exact ⟨not_lt_toNat.mp h.2, fun _ => le_refl _⟩
    · next h =>
        refine ⟨le_refl _, fun hs => ?_⟩
        have hlt : d.maxSeq < seq := not_not.mp fun hn => h ⟨hs, hn⟩
        exact le_of_lt (UInt32.lt_iff_toNat_lt.mp hlt)
  refine ⟨ht.wf.isDuplicate seq, ?_, by simp, ?_, fun _ => ?_, ?_⟩
  · obtain ⟨h, ho, hr⟩ := ht.history
    obtain ⟨h', hoff, hr'⟩ := hr.isDuplicate ht.wf seq
    exact ⟨h', ho.snoc hoff, hr'⟩
  · intro p hp
    rcases List.mem_append.mp hp with hp | hp
    · have hs : d.started = true := ht.started.mpr (List.ne_nil_of_mem hp)
      exact le_trans (ht.max_ge p hp) (hge.2 hs)
    · rw [List.mem_singleton.mp hp]
      exact hge.1
  · rw [hmax]
    split
    · next h =>
        obtain ⟨p, hp, he⟩ := ht.max_mem h.1
        exact ⟨p, List.mem_append_left _ hp, he⟩
    · exact ⟨(seq, _), List.mem_append_right _ (List.mem_singleton.mpr rfl), rfl⟩
  · intro p hp
    rw [isDuplicate_size]
    cases xs with
    | nil =>
        -- the first number received is the first lower bound
        have hs : d.started = false := by
          rw [← Bool.not_eq_true, ht.started]
          simp
        simp only [List.nil_append, List.head?_cons, Option.some.injEq] at hp
        left
        rw [← hp]
        rcases d.isDuplicate_cases seq with ⟨_, he⟩ | ⟨hr, _⟩ | ⟨hn, _⟩ | ⟨hn, _⟩
        · rw [he]
        · exact absurd hr.1 (by simp [hs])
        · exact absurd hn (by simp [hs])
        · exact absurd hn (by simp [hs])
    | cons q xs =>
        have hs : d.started = true := ht.started.mpr (by simp)
        have hq : (q :: xs).head? = some p := by simpa using hp
        rcases isDuplicate_minSeq ht.wf hs seq with hsame | hslid
        · rcases ht.low p hq with hfirst | hlow
          · exact Or.inl (hsame.trans hfirst)
          · right
            rw [hsame]
            exact le_trans hlow (Nat.add_le_add_right (hge.2 hs) 1)
        · exact Or.inr hslid

/-- Whatever was received is rejected from then on. -/
theorem Tracks.rejects_of_mem {d : DedupWindow} {xs : List (UInt32 × Bool)} (ht : Tracks d xs)
    {seq : UInt32} {b : Bool} (hm : (seq, b) ∈ xs) : d.Rejects seq := by
  obtain ⟨h, ho, hr⟩ := ht.history
  exact (hr.rejects_iff seq).mpr (ho.not_admits_of_mem hm)

/-- **Within the window.**  A number not received before, not below the first one received and
less than `size` behind the highest one is let through. -/
theorem Tracks.not_rejects {d : DedupWindow} {xs : List (UInt32 × Bool)} (ht : Tracks d xs)
    {seq : UInt32} (hnew : seq ∉ xs.map Prod.fst)
    (hfirst : ∀ p, xs.head? = some p → p.1.toNat ≤ seq.toNat)
    (hnear : ∀ p ∈ xs, p.1.toNat < seq.toNat + d.size) : ¬ d.Rejects seq := by
  obtain ⟨h, ho, hr⟩ := ht.history
  rw [hr.rejects_iff, not_not]
  refine ho.admits_of_fresh hnew ?_
  rw [hr.retired]
  rintro ⟨hs, hl⟩
  rw [UInt32.lt_iff_toNat_lt] at hl
  obtain ⟨q, rest, rfl⟩ := List.exists_cons_of_ne_nil (ht.started.mp hs)
  have hf := hfirst q rfl
  obtain ⟨p, hp, hpmax⟩ := ht.max_mem hs
  have hn := hnear p hp
  rcases ht.low q rfl with he | he
  · rw [he] at hl
    omega
  · rw [hpmax] at hn
    omega

/-- The verdicts are fair: at its first appearance every number that is not below the first one
and less than `size` behind the highest one so far was let through. -/
def Fair (size : ℕ) (xs : List (UInt32 × Bool)) : Prop :=
  ∀ ys seq b zs, xs = ys ++ (seq, b) :: zs → seq ∉ ys.map Prod.fst →
    (∀ p, ys.head? = some p → p.1.toNat ≤ seq.toNat) →
    (∀ p ∈ ys, p.1.toNat < seq.toNat + size) → b = true

theorem fair_nil (size : ℕ) : Fair size [] :=
  fun _ _ _ _ h => absurd h (by simp)

/-- The step lemma. -/
theorem Tracks.fair_isDuplicate {d : DedupWindow} {xs : List (UInt32 × Bool)} (ht : Tracks d xs)
    (hf : Fair d.size xs) (seq : UInt32) :
    Fair d.size (xs ++ [(seq, !(d.isDuplicate seq).1)]) := by
  intro ys seq' b zs he hnew hfirst hnear
  rcases List.eq_nil_or_concat zs with rfl | ⟨zs', p, rfl⟩
  · -- the call just made
    obtain ⟨rfl, hp⟩ := List.append_inj' he rfl
    obtain ⟨rfl, rfl⟩ := Prod.mk.inj (List.singleton_inj.mp hp)
    have hpass := (isDuplicate_iff d seq).not.mpr (ht.not_rejects hnew hfirst hnear)
    simpa using hpass
  · rw [List.concat_eq_append, ← List.cons_append, ← List.append_assoc] at he
    exact hf ys seq' b zs' (List.append_inj' he rfl).1 hnew hfirst hnear

end DedupWindow

end Fproxy
