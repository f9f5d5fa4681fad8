import Fproxy.DedupWindow
import Fproxy.Library.Simulation

/-!
# The Go window and the Rust window are the same function

The Go server keeps the same window with other arithmetic: its size is a signed 64-bit `int`, it
truncates the size to 32 bits, and where Rust saturates it computes modulo `2 ^ 32`.

* `Same g d` — the two windows hold the same data.  `Same.isDuplicate` is the step: one call
  answers the same and keeps the relation.
* `SlideSafe d g seq` — no operation of the slide to `seq` underflows, saturates or wraps on
  either side, and the lower bound rises.  `slideSafe` derives it from `newMin_eq`.
* `same_function` — the two agree on every sequence of calls.
-/

namespace Fproxy

open Fproxy.Runs

/-- `DedupWindow` of the Go server: `seen` is a `map[uint32]struct{}`, `size` an `int`. -/
structure GoDedupWindow where
  seen : Finset UInt32
  minSeq : UInt32
  maxSeq : UInt32
  size : Int64
  started : Bool
  deriving DecidableEq

/-- The conversion `uint32(n)` of an `int`. -/
def goUint32 (n : Int64) : UInt32 := n.toUInt64.toUInt32

namespace GoDedupWindow

/-- `NewDedupWindow`. -/
def new (size : Int64) : GoDedupWindow := ⟨∅, 0, 0, size, false⟩

/-- `IsDuplicate`: the verdict and the window after the call. -/
def isDuplicate (d : GoDedupWindow) (seq : UInt32) : Bool × GoDedupWindow :=
  if d.started = false then
    (false, { d with
      started := true, minSeq := seq, maxSeq := seq, seen := insert seq d.seen })
  else if seq ∈ d.seen then (true, d)
  else if seq < d.minSeq then (true, d)
  else
    let seen := insert seq d.seen
    if d.maxSeq < seq then
      if d.size < Int64.ofNat seen.card then
        let newMin := seq - goUint32 d.size + 1
        (false, { d with
          maxSeq := seq, seen := seen.filter (fun s => ¬ s < newMin), minSeq := newMin })
      else (false, { d with maxSeq := seq, seen := seen })
    else (false, { d with seen := seen })

end GoDedupWindow

namespace DedupWindow

/-! ### The two arithmetics -/

theorem goUint32_ofNat (n : ℕ) : goUint32 (Int64.ofNat n) = UInt32.ofNat n := by
  apply UInt32.toNat_inj.mp
  simp only [goUint32, Int64.toUInt64_ofNat', UInt64.toNat_toUInt32, UInt64.toNat_ofNat',
    UInt32.toNat_ofNat']
  omega

/-- `len(d.seen) > d.size` compares as on natural numbers: a set of 32-bit numbers is small. -/
theorem goSize_lt_card {n : ℕ} (hn : n < 2 ^ 63) (s : Finset UInt32) :
    Int64.ofNat n < Int64.ofNat s.card ↔ n < s.card := by
  have hcard : s.card ≤ 2 ^ 32 := by
    refine le_trans (card_le_of_bounds s 0 (2 ^ 32 - 1) fun x _ => ⟨Nat.zero_le _, ?_⟩) (by decide)
    have hx := x.toNat_lt
    omega
  rw [Int64.lt_iff_toInt_lt, Int64.toInt_ofNat_of_lt hn, Int64.toInt_ofNat_of_lt (by omega),
    Int.ofNat_lt]

/-- The calls that slide the window: a number above the highest one, not rejected, that finds
more than `size` numbers remembered. -/
def Slides (d : DedupWindow) (seq : UInt32) : Prop :=
  d.started = true ∧ ¬ d.Rejects seq ∧ d.maxSeq < seq ∧ d.size < (insert seq d.seen).card

/-- The bounds of a slide: the size fits below the new highest number, and the lower bound, `size`
below that number, strictly rises. -/
theorem Slides.bounds {d : DedupWindow} {seq : UInt32} (hd : Wf d) (hs : d.Slides seq) :
    (UInt32.ofNat d.size).toNat = d.size ∧ 1 ≤ d.size ∧ d.size ≤ seq.toNat ∧
      (d.newMin seq).toNat + d.size = seq.toNat + 1 ∧ d.minSeq.toNat < (d.newMin seq).toNat := by
  obtain ⟨hst, hacc, hmax, hcard⟩ := hs
  obtain ⟨heq, hrise⟩ := newMin_eq hd hst (not_rejects_of_started hst hacc).2
    (UInt32.lt_iff_toNat_lt.mp hmax) hcard
  have hlt := seq.toNat_lt_size
  have hpos := hd.size_pos
  exact ⟨UInt32.toNat_ofNat_of_lt' (by omega), hpos, by omega, heq, hrise⟩

/-- Go's expression for the lower bound of a slide has Rust's value. -/
theorem Slides.goNewMin {d : DedupWindow} {seq : UInt32} (hd : Wf d) (hs : d.Slides seq) :
    seq - goUint32 (Int64.ofNat d.size) + 1 = d.newMin seq := by
  obtain ⟨hsize, hpos, hle, heq, _⟩ := hs.bounds hd
  have hlt := seq.toNat_lt
  have hsub : (seq - UInt32.ofNat d.size).toNat = seq.toNat - d.size := by
    rw [UInt32.toNat_sub_of_le _ _ (by rw [UInt32.le_iff_toNat_le, hsize]; exact hle), hsize]
  apply UInt32.toNat_inj.mp
  rw [goUint32_ofNat, UInt32.toNat_add, hsub, UInt32.toNat_one]
  omega

/-- Every operation of the slide to `seq` is exact: Rust's `self.size as u32 - 1` does not
underflow and its `saturating_sub` does not saturate, neither operation of Go's
`maxSeq - uint32(size) + 1` wraps around, and both lower bounds strictly rise. -/
structure SlideSafe (d : DedupWindow) (g : GoDedupWindow) (seq : UInt32) : Prop where
  no_underflow : 1 ≤ UInt32.ofNat d.size
  no_saturation : UInt32.ofNat d.size - 1 ≤ seq
  sub_no_wrap : goUint32 g.size ≤ seq
  add_no_wrap : (seq - goUint32 g.size).toNat + 1 < 2 ^ 32
  rises : d.minSeq < (d.isDuplicate seq).2.minSeq
  goRises : g.minSeq < (g.isDuplicate seq).2.minSeq

/-! ### The simulation -/

/-- The Go window `g` and the Rust window `d` hold the same data. -/
structure Same (g : GoDedupWindow) (d : DedupWindow) : Prop where
  seen : g.seen = d.seen
  minSeq : g.minSeq = d.minSeq
  maxSeq : g.maxSeq = d.maxSeq
  size : g.size = Int64.ofNat d.size
  started : g.started = d.started

theorem same_new (n : ℕ) : Same (GoDedupWindow.new (Int64.ofNat n)) (new n) :=
  ⟨rfl, rfl, rfl, rfl, rfl⟩

/-- The step lemma: a call answers the same on both sides and keeps the relation. -/
theorem Same.isDuplicate {g : GoDedupWindow} {d : DedupWindow} (hsame : Same g d) (hd : Wf d)
    (hint : d.size < 2 ^ 63) (seq : UInt32) :
    (g.isDuplicate seq).1 = (d.isDuplicate seq).1 ∧
      Same (g.isDuplicate seq).2 (d.isDuplicate seq).2 := by
  obtain ⟨seen, lo, hi, size, started⟩ := g
  obtain ⟨rfl, rfl, rfl, rfl, rfl⟩ := hsame
  unfold GoDedupWindow.isDuplicate DedupWindow.isDuplicate
  dsimp only
  by_cases hst : d.started = false
  · rw [if_pos hst, if_pos hst]
    exact ⟨rfl, rfl, rfl, rfl, rfl, rfl⟩
  rw [if_neg hst, if_neg hst]
  by_cases hmem : seq ∈ d.seen
  · rw [if_pos hmem, if_pos hmem]
    exact ⟨rfl, rfl, rfl, rfl, rfl, rfl⟩
  rw [if_neg hmem, if_neg hmem]
  by_cases hlow : seq < d.minSeq
  · rw [if_pos hlow, if_pos hlow]
    exact ⟨rfl, rfl, rfl, rfl, rfl, rfl⟩
  rw [if_neg hlow, if_neg hlow]
  by_cases hmax : d.maxSeq < seq
  · rw [if_pos hmax, if_pos hmax]
    by_cases hcard : d.size < (insert seq d.seen).card
    · rw [if_pos ((goSize_lt_card hint _).mpr hcard), if_pos hcard]
      -- the slide, the one place where the two compute differently
      have hslides : d.Slides seq :=
        ⟨by simpa using hst, by rintro ⟨_, h | h⟩ <;> contradiction, hmax, hcard⟩
      have hmin := hslides.goNewMin hd
      refine ⟨rfl, ?_, hmin, rfl, rfl, rfl⟩
      show Finset.filter _ _ = Finset.filter _ _
      rw [hmin]
      exact Finset.filter_congr fun s _ => UInt32.not_lt
    · rw [if_neg (mt (goSize_lt_card hint _).mp hcard), if_neg hcard]
      exact ⟨rfl, rfl, rfl, rfl, rfl, rfl⟩
  · rw [if_neg hmax, if_neg hmax]
    exact ⟨rfl, rfl, rfl, rfl, rfl, rfl⟩

/-- The arithmetic of a slide is safe on both sides. -/
theorem slideSafe {g : GoDedupWindow} {d : DedupWindow} (hsame : Same g d) (hd : Wf d)
    (hint : d.size < 2 ^ 63) {seq : UInt32} (hs : d.Slides seq) : SlideSafe d g seq := by
  obtain ⟨hsize, hpos, hle, _, hrise⟩ := hs.bounds hd
  have hlt := seq.toNat_lt
  have hone : 1 ≤ UInt32.ofNat d.size := by
    rw [UInt32.le_iff_toNat_le, hsize]
    exact hpos
  have hsub : UInt32.ofNat d.size ≤ seq := by
    rw [UInt32.le_iff_toNat_le, hsize]
    exact hle
  have hnext : (d.isDuplicate seq).2.minSeq = d.newMin seq := by
    rcases d.isDuplicate_cases seq with ⟨hn, _⟩ | ⟨hr, _⟩ | ⟨_, _, hfull, _⟩ | ⟨_, _, _, _, he⟩
    · exact absurd hs.1 (by simp [hn])
    · exact absurd hr hs.2.1
    · have hcard := hs.2.2.2
      have := hfull (UInt32.lt_iff_toNat_lt.mp hs.2.2.1)
      omega
    · rw [he]
  have hup : d.minSeq < (d.isDuplicate seq).2.minSeq := by
    rw [hnext, UInt32.lt_iff_toNat_lt]
    exact hrise
  refine ⟨hone, ?_, ?_, ?_, hup, ?_⟩
  · rw [UInt32.le_iff_toNat_le, UInt32.toNat_sub_of_le _ _ hone, hsize]
    omega
  · rw [hsame.size, goUint32_ofNat]
    exact hsub
  · rw [hsame.size, goUint32_ofNat, UInt32.toNat_sub_of_le _ _ hsub, hsize]
    omega
  · rw [hsame.minSeq, (hsame.isDuplicate hd hint seq).2.minSeq]
    exact hup

/-- What `Tracks` says of a Rust window, of the Go window that holds the same data. -/
def GoTracks (g : GoDedupWindow) (xs : List (UInt32 × Bool)) : Prop :=
  ∃ d, Same g d ∧ Tracks d xs ∧ d.size < 2 ^ 63

theorem goTracks_new {size : ℕ} (hpos : 1 ≤ size) (hint : size < 2 ^ 63) :
    GoTracks (.new (Int64.ofNat size)) [] :=
  ⟨new size, same_new size, tracks_new hpos, hint⟩

/-- One more call, one more received number. -/
theorem GoTracks.isDuplicate {g : GoDedupWindow} {xs : List (UInt32 × Bool)} (ht : GoTracks g xs)
    (seq : UInt32) : GoTracks (g.isDuplicate seq).2 (xs ++ [(seq, !(g.isDuplicate seq).1)]) := by
  obtain ⟨d, hsame, htracks, hint⟩ := ht
  obtain ⟨hans, hnext⟩ := hsame.isDuplicate htracks.wf hint seq
  refine ⟨(d.isDuplicate seq).2, hnext, ?_, ?_⟩
  · rw [hans]
    exact htracks.isDuplicate seq
  · rw [isDuplicate_size]
    exact hint

/-- Whatever was received is a duplicate from then on. -/
theorem GoTracks.duplicate_of_mem {g : GoDedupWindow} {xs : List (UInt32 × Bool)}
    (ht : GoTracks g xs) {seq : UInt32} {b : Bool} (hm : (seq, b) ∈ xs) :
    (g.isDuplicate seq).1 = true := by
  obtain ⟨d, hsame, htracks, hint⟩ := ht
  rw [(hsame.isDuplicate htracks.wf hint seq).1]
  exact congrArg Prod.fst (isDuplicate_of_rejects (htracks.rejects_of_mem hm))

/-! ### Sequences of calls -/

/-- The calls `is_duplicate(seq)` on a new window of the given size. -/
def window (size : ℕ) : Machine DedupWindow UInt32 Bool := .calls (new size) isDuplicate

/-- The calls `IsDuplicate(seq)` on a new Go window. -/
def goWindow (size : Int64) : Machine GoDedupWindow UInt32 Bool :=
  .calls (.new size) GoDedupWindow.isDuplicate

/-- **The Go and the Rust window are the same function.**  For every window size from one up to
the largest `int`, every sequence of calls gets the same answers from both and leaves both with
the same bounds and the same remembered set; and whichever number comes next, if it slides the
window then no operation of the slide underflows, saturates or wraps around. -/
theorem same_function (size : ℕ) (hpos : 1 ≤ size) (hint : size < 2 ^ 63) (seqs : List UInt32) :
    ∃ answers d g, (window size).exec seqs = some (d, answers) ∧
      (goWindow (Int64.ofNat size)).exec seqs = some (g, answers) ∧
      g.minSeq = d.minSeq ∧ g.maxSeq = d.maxSeq ∧ g.seen = d.seen ∧
      ∀ seq, d.Slides seq → SlideSafe d g seq := by
  obtain ⟨d, answers, hrun⟩ := Machine.calls_total (new size) isDuplicate seqs
  have hstep : ∀ d g seq d' o, (Wf d ∧ d.size = size ∧ Same g d) →
      (window size).step d seq = some (d', o) →
        ∃ g', (goWindow (Int64.ofNat size)).step g seq = some (g', o) ∧
          Wf d' ∧ d'.size = size ∧ Same g' d' := by
    rintro d g seq d' o ⟨hd, hsize, hsame⟩ hs
    obtain ⟨rfl, rfl⟩ := Machine.calls_step.mp hs
    obtain ⟨hans, hnext⟩ := hsame.isDuplicate hd (by omega) seq
    exact ⟨(g.isDuplicate seq).2, Machine.calls_step.mpr ⟨rfl, by rw [hans]⟩,
      hd.isDuplicate seq, by rw [isDuplicate_size, hsize], hnext⟩
  obtain ⟨g, hgo, hd, hsize, hsame⟩ := Machine.exec_related (M := window size)
    (N := goWindow (Int64.ofNat size)) ⟨wf_new hpos, rfl, same_new size⟩ hstep hrun
  exact ⟨answers, d, g, hrun, hgo, hsame.minSeq, hsame.maxSeq, hsame.seen,
    fun seq hs => slideSafe hsame hd (by omega) hs⟩

/-- A window of two numbers that slides at its third call, on both sides. -/
theorem same_function_slide :
    ∃ answers d g, (window 2).exec [7, 9, 12, 8] = some (d, answers) ∧
      (goWindow (Int64.ofNat 2)).exec [7, 9, 12, 8] = some (g, answers) ∧
      g.minSeq = d.minSeq ∧ g.maxSeq = d.maxSeq ∧ g.seen = d.seen ∧
      ∀ seq, d.Slides seq → SlideSafe d g seq :=
  same_function 2 (by decide) (by decide) [7, 9, 12, 8]

end DedupWindow

end Fproxy
