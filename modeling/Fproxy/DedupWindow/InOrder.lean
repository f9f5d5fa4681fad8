import Fproxy.DedupWindow.Go

/-!
# In-order delivery across the wrap-around of the counter

The counters of the client (`seq`) and of the server (`response_seq`) wrap around at `2 ^ 32`, the
window at the other end compares numbers linearly.

* `successive start n` — the first `n` values of a wrapping counter.
* `Filled d` — the window remembers every number between its bounds; deliveries in order keep it.
* `successive_answers` — the verdicts of a loss-free run in order, of any length.
* `accepted_until_wrap` — a packet of such a run is accepted exactly when the counter has not
  wrapped around before it.
-/

namespace Fproxy.DedupWindow

open Fproxy.Runs

/-- The first `n` values of a `u32` counter that hands out its value and then wraps upwards. -/
def successive : UInt32 → ℕ → List UInt32
  | _, 0 => []
  | next, n + 1 => next :: successive (next + 1) n

theorem successive_snoc (start : UInt32) (n : ℕ) :
    successive start (n + 1) = successive start n ++ [start + UInt32.ofNat n] := by
  induction n generalizing start with
  | zero => simp [successive]
  | succ n ih =>
      have hnext : start + 1 + UInt32.ofNat n = start + UInt32.ofNat (n + 1) := by
        rw [UInt32.ofNat_add, UInt32.add_assoc, UInt32.add_comm 1]
        rfl
      rw [successive, ih, hnext]
      rfl

@[simp] theorem length_successive (start : UInt32) (n : ℕ) :
    (successive start n).length = n := by
  induction n generalizing start with
  | zero => rfl
  | succ n ih => simp [successive, ih]

/-- The window remembers every number between its bounds. -/
structure Filled (d : DedupWindow) : Prop where
  started : d.started = true
  mem : ∀ x : UInt32, d.minSeq.toNat ≤ x.toNat → x.toNat ≤ d.maxSeq.toNat → x ∈ d.seen

/-- A filled window whose upper bound is the highest number rejects everything. -/
theorem Filled.rejects {d : DedupWindow} (hf : Filled d) (hmax : d.maxSeq.toNat + 1 = 2 ^ 32)
    (seq : UInt32) : d.Rejects seq := by
  refine ⟨hf.started, ?_⟩
  by_cases hlow : seq < d.minSeq
  · exact Or.inr hlow
  · have hlt := seq.toNat_lt
    exact Or.inl (hf.mem seq (not_lt_toNat.mp hlow) (by omega))

/-- The first number fills the window. -/
theorem filled_first {d : DedupWindow} (hst : d.started = false) (seq : UInt32) :
    (d.isDuplicate seq).1 = false ∧ Filled (d.isDuplicate seq).2 ∧
      (d.isDuplicate seq).2.maxSeq = seq := by
  have he : d.isDuplicate seq = (false, { d with
      started := true, minSeq := seq, maxSeq := seq, seen := insert seq d.seen }) := by
    simp [isDuplicate, hst]
  rw [he]
  refine ⟨rfl, ⟨rfl, fun x hlo hhi => ?_⟩, rfl⟩
  have hx : x = seq := UInt32.toNat_inj.mp (le_antisymm hhi hlo)
  exact Finset.mem_insert.mpr (Or.inl hx)

/-- The step lemma: the number after the highest one is accepted and keeps the window filled. -/
theorem Filled.next {d : DedupWindow} (hd : Wf d) (hf : Filled d) {seq : UInt32}
    (hseq : seq.toNat = d.maxSeq.toNat + 1) :
    (d.isDuplicate seq).1 = false ∧ Filled (d.isDuplicate seq).2 ∧
      (d.isDuplicate seq).2.maxSeq = seq := by
  have hmax : d.maxSeq < seq := by
    rw [UInt32.lt_iff_toNat_lt]
    omega
  have hacc : ¬ d.Rejects seq := not_rejects_of_max_lt hd fun _ => by omega
  have hmem : ∀ x : UInt32, d.minSeq.toNat ≤ x.toNat → x.toNat ≤ seq.toNat →
      x ∈ insert seq d.seen := by
    intro x hlo hhi
    by_cases hx : x = seq
    · exact Finset.mem_insert.mpr (Or.inl hx)
    · have hne : x.toNat ≠ seq.toNat := fun h => hx (UInt32.toNat_inj.mp h)
      exact Finset.mem_insert.mpr (Or.inr (hf.mem x hlo (by omega)))
  rcases d.isDuplicate_cases seq with
    ⟨hst, _⟩ | ⟨hr, _⟩ | ⟨hst, _, _, he⟩ | ⟨hst, _, hlt, hcard, he⟩
  · exact absurd hf.started (by simp [hst])
  · exact absurd hr hacc
  · rw [he, if_pos hmax]
    exact ⟨rfl, ⟨hst, hmem⟩, rfl⟩
  · have hrise := (newMin_eq hd hst (not_rejects_of_started hst hacc).2 hlt hcard).2
    rw [he]
    refine ⟨rfl, ⟨hst, fun x hlo hhi => ?_⟩, rfl⟩
    exact Finset.mem_filter.mpr
      ⟨hmem x (le_trans (le_of_lt hrise) hlo) hhi, UInt32.le_iff_toNat_le.mpr hlo⟩

/-- The window after the first `n` values: untouched before the first, then filled up to the last
of them, and from the wrap-around on filled up to the highest number there is. -/
structure InOrder (start : UInt32) (n : ℕ) (d : DedupWindow) : Prop where
  wf : Wf d
  fresh : n = 0 → d.started = false
  filled : n ≠ 0 → Filled d
  max : n ≠ 0 → d.maxSeq.toNat = min (start.toNat + n - 1) (2 ^ 32 - 1)

/-- The step lemma of the run. -/
theorem InOrder.next {start : UInt32} {n : ℕ} {d : DedupWindow} (hi : InOrder start n d) :
    (d.isDuplicate (start + UInt32.ofNat n)).1 = decide (2 ^ 32 ≤ start.toNat + n) ∧
      InOrder start (n + 1) (d.isDuplicate (start + UInt32.ofNat n)).2 := by
  have hlt := start.toNat_lt
  have hval : (start + UInt32.ofNat n).toNat = (start.toNat + n) % 2 ^ 32 := by
    rw [UInt32.toNat_add, UInt32.toNat_ofNat', Nat.add_mod_mod]
  have hwf := hi.wf.isDuplicate (start + UInt32.ofNat n)
  by_cases hwrap : 2 ^ 32 ≤ start.toNat + n
  · -- past the wrap-around: the window is full and rejects every number
    have hn : n ≠ 0 := by omega
    have hmax := hi.max hn
    have hrej := (hi.filled hn).rejects (by omega) (start + UInt32.ofNat n)
    rw [isDuplicate_of_rejects hrej]
    refine ⟨(decide_eq_true hwrap).symm, hi.wf, fun h => absurd h (by omega),
      fun _ => hi.filled hn, fun _ => ?_⟩
    dsimp only
    omega
  · have hmod : (start + UInt32.ofNat n).toNat = start.toNat + n := by
      rw [hval, Nat.mod_eq_of_lt (by omega)]
    have hstep : (d.isDuplicate (start + UInt32.ofNat n)).1 = false ∧
        Filled (d.isDuplicate (start + UInt32.ofNat n)).2 ∧
        (d.isDuplicate (start + UInt32.ofNat n)).2.maxSeq = start + UInt32.ofNat n := by
      by_cases hn : n = 0
      · exact filled_first (hi.fresh hn) _
      · have hmax := hi.max hn
        exact (hi.filled hn).next hi.wf (by omega)
    obtain ⟨hans, hfilled, hmax⟩ := hstep
    refine ⟨by rw [hans, decide_eq_false hwrap], hwf, fun h => absurd h (by omega),
      fun _ => hfilled, fun _ => ?_⟩
    rw [hmax, hmod]
    omega

/-- The verdicts of a loss-free run in order: the values from the wrap-around on are rejected, all
others are accepted. -/
theorem successive_answers (size : ℕ) (hpos : 1 ≤ size) (start : UInt32) (n : ℕ) :
    ∃ d, (window size).exec (successive start n) =
        some (d, (List.range n).map fun i => decide (2 ^ 32 ≤ start.toNat + i)) ∧
      InOrder start n d := by
  induction n with
  | zero =>
      exact ⟨new size, rfl, wf_new hpos, fun _ => rfl, fun h => absurd rfl h, fun h => absurd rfl h⟩
  | succ n ih =>
      obtain ⟨d, hrun, hi⟩ := ih
      obtain ⟨hans, hnext⟩ := hi.next
      refine ⟨(d.isDuplicate (start + UInt32.ofNat n)).2, ?_, hnext⟩
      rw [successive_snoc, List.range_succ, List.map_append, List.map_singleton, ← hans]
      exact Machine.calls_snoc hrun _

/-- **A session lives until its counter wraps around.**  For every window size, every start of the
counter and any number of packets delivered in order, each once and without loss: a packet is
accepted if and only if the counter has not wrapped around before it. -/
theorem accepted_until_wrap (size : ℕ) (hpos : 1 ≤ size) (start : UInt32) (n : ℕ) :
    ∃ d answers, (window size).exec (successive start n) = some (d, answers) ∧
      ∀ i < n, (answers[i]? = some false ↔ start.toNat + i < 2 ^ 32) := by
  obtain ⟨d, hrun, _⟩ := successive_answers size hpos start n
  refine ⟨d, _, hrun, fun i hi => ?_⟩
  rw [List.getElem?_map, List.getElem?_range hi]
  simp

/-- The server's counter starts at 0: its first three responses are accepted. -/
theorem accepted_until_wrap_first_three :
    ∃ d answers, (window 1000).exec (successive 0 3) = some (d, answers) ∧
      ∀ i < 3, (answers[i]? = some false ↔ (0 : UInt32).toNat + i < 2 ^ 32) :=
  accepted_until_wrap 1000 (by decide) 0 3

/-- The response after the first `2 ^ 32` of a session is taken for a duplicate. -/
theorem black_hole_after_wrap :
    ∃ d answers, (window 1000).exec (successive 0 (2 ^ 32 + 1)) = some (d, answers) ∧
      answers[2 ^ 32]? = some true := by
  obtain ⟨d, hrun, _⟩ := successive_answers 1000 (by decide) 0 (2 ^ 32 + 1)
  refine ⟨d, _, hrun, ?_⟩
  rw [List.getElem?_map, List.getElem?_range (Nat.lt_succ_self _)]
  simp

end Fproxy.DedupWindow
