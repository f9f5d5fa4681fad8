import Fproxy.DedupWindow.Go

/-!
# How many numbers the window remembers

Old numbers are dropped only by a call that raises `maxSeq`.  A number below `maxSeq` that is still
in the window is added without any, so a gap that opened while the window was small can be filled
beyond its size later.

* `card_isDuplicate` — what one call does to the number of remembered numbers.
* `seen_bounded_iff` — at most `size` numbers are remembered throughout exactly when no call fills
  a gap of a full window.
* `gap_filled_late` — three calls after which a window of two remembers three numbers.

The window of the client is the same function, so the results are about both.
-/

namespace Fproxy.DedupWindow

open Fproxy.Runs

/-- The call `is_duplicate(seq)` adds a number below the highest one to a full window. -/
def FillsGap (d : DedupWindow) (seq : UInt32) : Prop :=
  d.started = true ∧ ¬ d.Rejects seq ∧ seq ≤ d.maxSeq ∧ d.size ≤ d.seen.card

instance (d : DedupWindow) (seq : UInt32) : Decidable (d.Rejects seq) :=
  inferInstanceAs (Decidable (_ ∧ _))

instance (d : DedupWindow) (seq : UInt32) : Decidable (d.FillsGap seq) :=
  inferInstanceAs (Decidable (_ ∧ _))

/-- A slide leaves at most `size` numbers: they lie between the new bounds. -/
theorem card_slide_le {d : DedupWindow} (hd : Wf d) {seq : UInt32} (hs : d.Slides seq) :
    ((insert seq d.seen).filter (d.newMin seq ≤ ·)).card ≤ d.size := by
  obtain ⟨_, _, _, heq, _⟩ := hs.bounds hd
  have hmax := UInt32.lt_iff_toNat_lt.mp hs.2.2.1
  have hle := card_le_of_bounds ((insert seq d.seen).filter (d.newMin seq ≤ ·))
    (d.newMin seq).toNat seq.toNat fun x hx => ?_
  · omega
  · obtain ⟨hx, hlow⟩ := Finset.mem_filter.mp hx
    refine ⟨UInt32.le_iff_toNat_le.mp hlow, ?_⟩
    rcases Finset.mem_insert.mp hx with rfl | hx
    · exact le_refl _
    · have hb := hd.bounds hs.1 x hx
      omega

/-- Filling a gap of a full window breaks the bound. -/
theorem FillsGap.lt_card {d : DedupWindow} {seq : UInt32} (h : d.FillsGap seq) :
    d.size < (d.isDuplicate seq).2.seen.card := by
  obtain ⟨hst, hacc, hle, hfull⟩ := h
  rcases d.isDuplicate_cases seq with ⟨hn, _⟩ | ⟨hr, _⟩ | ⟨_, _, _, he⟩ | ⟨_, _, hmax, _⟩
  · exact absurd hst (by simp [hn])
  · exact absurd hr hacc
  · rw [he]
    have hcard := Finset.card_insert_of_notMem (not_rejects_of_started hst hacc).1
    dsimp only
    omega
  · have hle := UInt32.le_iff_toNat_le.mp hle
    omega

/-- The step lemma: any other call keeps it. -/
theorem card_isDuplicate {d : DedupWindow} (hd : Wf d) {seq : UInt32}
    (hcard : d.seen.card ≤ d.size) (hgap : ¬ d.FillsGap seq) :
    (d.isDuplicate seq).2.seen.card ≤ d.size := by
  rcases d.isDuplicate_cases seq with
    ⟨hst, he⟩ | ⟨_, he⟩ | ⟨hst, hacc, hfull, he⟩ | ⟨hst, hacc, hmax, hbig, he⟩
  · rw [he]
    simpa [hd.fresh hst] using hd.size_pos
  · rw [he]
    exact hcard
  · rw [he]
    dsimp only
    by_cases hmax : d.maxSeq.toNat < seq.toNat
    · exact hfull hmax
    · -- the number lies inside the window, which therefore has room for it
      have hle : seq ≤ d.maxSeq := UInt32.le_iff_toNat_le.mpr (Nat.not_lt.mp hmax)
      have hroom : ¬ d.size ≤ d.seen.card := fun h => hgap ⟨hst, hacc, hle, h⟩
      have hins := Finset.card_insert_le seq d.seen
      omega
  · rw [he]
    exact card_slide_le hd ⟨hst, hacc, UInt32.lt_iff_toNat_lt.mpr hmax, hbig⟩

/-- **When the memory is bounded.**  For every size and every sequence of calls, the window
remembers at most `size` numbers after every call if and only if no call adds a number that is not
above the highest one while `size` numbers are remembered. -/
theorem seen_bounded_iff (size : ℕ) (hpos : 1 ≤ size) (seqs : List UInt32) :
    (window size).Always (fun d _ => d.seen.card ≤ size) seqs ↔
      (window size).Each (fun d _ seq => ¬ d.FillsGap seq) seqs := by
  constructor
  · intro h
    obtain ⟨d, answers, hrun⟩ := Machine.calls_total (new size) isDuplicate seqs
    refine Machine.each_of_always (fun es d tr seq d' o hexec hs hbound hgap => ?_) hrun h
    obtain ⟨rfl, rfl⟩ := Machine.calls_step.mp hs
    have hsize : d.size = size := by
      refine (window size).invariant (I := fun d _ => d.size = size) rfl
        (fun d _ seq d' o ih hs => ?_) hexec
      obtain ⟨rfl, rfl⟩ := Machine.calls_step.mp hs
      rw [isDuplicate_size, ih]
    have hlt := hgap.lt_card
    omega
  · intro h
    have hinv : (window size).Always
        (fun d _ => Wf d ∧ d.size = size ∧ d.seen.card ≤ size) seqs := by
      refine Machine.always_of_each ⟨wf_new hpos, rfl, Nat.zero_le _⟩
        (fun d tr seq d' o hP hgap hs => ?_) h
      obtain ⟨hd, hsize, hcard⟩ := hP
      obtain ⟨rfl, rfl⟩ := Machine.calls_step.mp hs
      refine ⟨hd.isDuplicate seq, by rw [isDuplicate_size, hsize], ?_⟩
      have hnext := card_isDuplicate hd (hsize ▸ hcard) hgap
      omega
    exact fun pre hpre d tr hrun => (hinv pre hpre d tr hrun).2.2

/-- A window of two: the gap between 0 and 5 is filled when both are remembered. -/
theorem gap_filled_late :
    ∃ d answers, (window 2).exec [0, 5, 3] = some (d, answers) ∧ d.seen.card = 3 := by
  have hview : ((window 2).exec [0, 5, 3]).map (fun r => r.1.seen.card) = some 3 := by decide
  obtain ⟨⟨d, answers⟩, hrun, hcard⟩ := Option.map_eq_some_iff.mp hview
  exact ⟨d, answers, hrun, hcard⟩

/-- The same window with a gap that is filled while it has room: 6 has pushed out 3 and 4. -/
theorem seen_bounded_gap_in_time :
    (window 2).Always (fun d _ => d.seen.card ≤ 2) [3, 4, 6, 5] := by
  refine (seen_bounded_iff 2 (by decide) [3, 4, 6, 5]).mpr ?_
  have hcheck : ∀ (d : DedupWindow) (tr : List Bool) (seq : UInt32),
      (!decide (d.FillsGap seq)) = true → ¬ d.FillsGap seq := fun d _ seq h => by simpa using h
  exact Machine.each_of_check hcheck (by decide)

end Fproxy.DedupWindow
