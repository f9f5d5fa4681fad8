import Mathlib.Data.List.Pairwise
import Fproxy.Library.Clock

/-!
# Leases

A lease is granted and renewed by being used, and a check ends the leases that have been idle for
longer than a timeout.  The holder may also be dropped for some other reason.  Nothing else ends a
lease, and nothing brings it back.

A use stamps the lease with the time at which it read the clock.  Where uses wait between reading the
clock and stamping the lease, a stamp may replace a later one, and a check goes by the last stamp.

* `Mark` — what happens to leases; `Used`, `Lapsed`, `Dropped` — what a timed trace says of one.
* `lastUse`, `Expired` — the last stamp of a lease, and what a check makes of it.
* `Expired.lapsed`, `expired_iff_lapsed` — how far a check is off if the stamps are nearly in order.
* `Tracks` — a table of leases that goes by such a trace, with one rule for each kind of mark.
* **`Tracks.held_iff`** — a lease is held if and only if no check found its last stamp too old and
  it was not dropped.
* **`Tracks.used_recently`** — if the last check is not long ago, whoever holds a lease has used it
  not long ago.
-/

namespace Fproxy.Leases

variable {κ : Type*}

/-- What happens to leases.  A check comes with the clock reading it goes by. -/
inductive Mark (κ : Type*) where
  | used (k : κ)
  | checked (reading : ℕ)
  | dropped (k : κ)
  deriving DecidableEq

/-- The lease was used at time `t`. -/
def Used (tr : List (ℕ × Mark κ)) (k : κ) (t : ℕ) : Prop := (t, .used k) ∈ tr

/-- Some check found that the lease had been used, but not for longer than the timeout. -/
def Lapsed (timeout : ℕ) (tr : List (ℕ × Mark κ)) (k : κ) : Prop :=
  ∃ pre post t reading, tr = pre ++ (t, .checked reading) :: post ∧ (∃ u, Used pre k u) ∧
    ∀ u, Used pre k u → u + timeout < reading

/-- The time that the last use has stamped the lease with. -/
def lastUse [DecidableEq κ] (tr : List (ℕ × Mark κ)) (k : κ) : Option ℕ :=
  tr.foldl (fun u x => if x.2 = .used k then some x.1 else u) none

/-- Some check found that the last stamp of the lease was older than the timeout. -/
def Expired [DecidableEq κ] (timeout : ℕ) (tr : List (ℕ × Mark κ)) (k : κ) : Prop :=
  ∃ pre post t reading u, tr = pre ++ (t, .checked reading) :: post ∧ lastUse pre k = some u ∧
    u + timeout < reading

/-- The lease was dropped. -/
def Dropped (tr : List (ℕ × Mark κ)) (k : κ) : Prop := ∃ t, (t, .dropped k) ∈ tr

/-- A check at most `interval` ago, or no time for one yet. -/
def CheckedWithin (interval : ℕ) (tr : List (ℕ × Mark κ)) (now : ℕ) : Prop :=
  now ≤ interval ∨ ∃ t reading, (t, .checked reading) ∈ tr ∧ now ≤ reading + interval

/-! ### One more mark -/

section Snoc

variable [DecidableEq κ] {timeout : ℕ} {tr : List (ℕ × Mark κ)} {t : ℕ} {m : Mark κ} {k : κ}

omit [DecidableEq κ] in
theorem used_snoc {u : ℕ} : Used (tr ++ [(t, m)]) k u ↔ Used tr k u ∨ u = t ∧ m = .used k := by
  unfold Used
  rw [List.mem_append, List.mem_singleton, Prod.mk.injEq, eq_comm (a := m)]

omit [DecidableEq κ] in
theorem dropped_snoc : Dropped (tr ++ [(t, m)]) k ↔ Dropped tr k ∨ m = .dropped k := by
  unfold Dropped
  simp only [List.mem_append, List.mem_singleton, Prod.mk.injEq, exists_or, exists_eq_left]
  rw [eq_comm (a := m)]

@[simp] theorem lastUse_nil : lastUse ([] : List (ℕ × Mark κ)) k = none := rfl

theorem lastUse_snoc :
    lastUse (tr ++ [(t, m)]) k = if m = .used k then some t else lastUse tr k := by
  rw [lastUse, List.foldl_append]
  rfl

/-- Only a check makes a lease expire. -/
theorem expired_snoc : Expired timeout (tr ++ [(t, m)]) k ↔ Expired timeout tr k ∨
    ∃ reading u, m = .checked reading ∧ lastUse tr k = some u ∧ u + timeout < reading := by
  constructor
  · rintro ⟨pre, post, t', reading, u, heq, hlast, hold⟩
    rcases List.eq_nil_or_concat post with rfl | ⟨post', x, rfl⟩
    · obtain ⟨rfl, hend⟩ := List.append_inj' heq rfl
      have hm : m = .checked reading := (Prod.mk.inj (List.cons.inj hend).1).2
      exact Or.inr ⟨reading, u, hm, hlast, hold⟩
    · rw [List.concat_eq_append, ← List.cons_append, ← List.append_assoc] at heq
      have htr := (List.append_inj' heq rfl).1
      exact Or.inl ⟨pre, post', t', reading, u, htr, hlast, hold⟩
  · rintro (⟨pre, post, t', reading, u, rfl, hlast, hold⟩ | ⟨reading, u, rfl, hlast, hold⟩)
    · have heq : pre ++ (t', .checked reading) :: post ++ [(t, m)] =
          pre ++ (t', .checked reading) :: (post ++ [(t, m)]) := by
        rw [List.append_assoc, List.cons_append]
      exact ⟨pre, post ++ [(t, m)], t', reading, u, heq, hlast, hold⟩
    · exact ⟨tr, [], t, reading, u, rfl, hlast, hold⟩

omit [DecidableEq κ] in
theorem readings_snoc (h : ∀ t reading, (t, Mark.checked reading) ∈ tr → reading ≤ t)
    (hm : ∀ reading, m = .checked reading → reading ≤ t) :
    ∀ t' reading, (t', Mark.checked reading) ∈ tr ++ [(t, m)] → reading ≤ t' := by
  intro t' reading hmem
  rcases List.mem_append.mp hmem with hmem | hmem
  · exact h t' reading hmem
  · obtain ⟨rfl, rfl⟩ := Prod.mk.inj (List.mem_singleton.mp hmem)
    exact hm reading rfl

end Snoc

/-! ### The last stamp -/

section Last

variable [DecidableEq κ] {timeout delay u v : ℕ} {tr : List (ℕ × Mark κ)} {k : κ}

theorem used_of_lastUse (h : lastUse tr k = some u) : Used tr k u := by
  induction tr using List.reverseRecOn with
  | nil => exact absurd h (by simp)
  | append_singleton tr x ih =>
      obtain ⟨t, m⟩ := x
      rw [lastUse_snoc] at h
      split at h
      · next hm =>
          obtain rfl := Option.some.inj h
          exact used_snoc.mpr (.inr ⟨rfl, hm⟩)
      · exact used_snoc.mpr (.inl (ih h))

theorem lastUse_of_used (h : Used tr k v) : ∃ u, lastUse tr k = some u := by
  induction tr using List.reverseRecOn with
  | nil => exact absurd h List.not_mem_nil
  | append_singleton tr x ih =>
      obtain ⟨t, m⟩ := x
      rw [lastUse_snoc]
      split
      · exact ⟨t, rfl⟩
      · next hm => exact ih ((used_snoc.mp h).resolve_right fun hv => hm hv.2)

/-- If no stamp is behind an earlier one by more than the delay, then neither is the last. -/
theorem used_le_lastUse (hsorted : tr.Pairwise fun x y => x.1 ≤ y.1 + delay)
    (hlast : lastUse tr k = some u) (hused : Used tr k v) : v ≤ u + delay := by
  induction tr using List.reverseRecOn with
  | nil => exact absurd hused List.not_mem_nil
  | append_singleton tr x ih =>
      obtain ⟨t, m⟩ := x
      obtain ⟨hinit, -, hend⟩ := List.pairwise_append.mp hsorted
      rw [lastUse_snoc] at hlast
      split at hlast
      · obtain rfl := Option.some.inj hlast
        rcases used_snoc.mp hused with hused | ⟨rfl, -⟩
        · exact hend _ hused _ (List.mem_singleton_self _)
        · exact Nat.le_add_right _ _
      · next hm => exact ih hinit hlast ((used_snoc.mp hused).resolve_right fun hv => hm hv.2)

/-- If no stamp is behind an earlier one by more than the delay, a lease expires only where all its
uses are longer ago than the timeout less the delay. -/
theorem Expired.lapsed (h : Expired timeout tr k) (hdelay : delay ≤ timeout)
    (hsorted : tr.Pairwise fun x y => x.1 ≤ y.1 + delay) : Lapsed (timeout - delay) tr k := by
  obtain ⟨pre, post, t, reading, u, rfl, hlast, hold⟩ := h
  refine ⟨pre, post, t, reading, rfl, ⟨u, used_of_lastUse hlast⟩, fun v hv => ?_⟩
  have hle := used_le_lastUse (List.pairwise_append.mp hsorted).1 hlast hv
  omega

/-- If the stamps are in order, a lease expires where it lapses. -/
theorem expired_iff_lapsed (hsorted : tr.Pairwise fun x y => x.1 ≤ y.1) :
    Expired timeout tr k ↔ Lapsed timeout tr k := by
  constructor
  · intro h
    exact h.lapsed (Nat.zero_le _) hsorted
  · rintro ⟨pre, post, t, reading, rfl, ⟨v, hv⟩, hidle⟩
    obtain ⟨u, hu⟩ := lastUse_of_used hv
    exact ⟨pre, post, t, reading, u, rfl, hu, hidle u (used_of_lastUse hu)⟩

end Last

/-! ### A table that goes by the marks -/

/-- The leases that were granted, those that are held, and the stamp of each, as the trace has
it. -/
structure Tracks [DecidableEq κ] (timeout : ℕ) (tr : List (ℕ × Mark κ)) (granted held : κ → Prop)
    (stamp : κ → ℕ) : Prop where
  granted_iff : ∀ k, granted k ↔ ∃ u, Used tr k u
  stamped : ∀ k, granted k → lastUse tr k = some (stamp k)
  held_iff : ∀ k, granted k → (held k ↔ ¬ Expired timeout tr k ∧ ¬ Dropped tr k)
  readings : ∀ t reading, (t, .checked reading) ∈ tr → reading ≤ t

namespace Tracks

variable [DecidableEq κ] {timeout : ℕ} {tr : List (ℕ × Mark κ)}
  {granted held granted' held' : κ → Prop} {stamp stamp' : κ → ℕ}

/-- Nothing was granted yet. -/
theorem nil (h : ∀ k, ¬ granted k) : Tracks timeout [] granted held stamp :=
  ⟨fun k => iff_of_false (h k) (by rintro ⟨_, hu⟩; exact absurd hu List.not_mem_nil),
    fun k hk => absurd hk (h k), fun k hk => absurd hk (h k),
    fun _ _ hm => absurd hm List.not_mem_nil⟩

/-- Frame rule: nothing happens to the leases. -/
theorem frame (hi : Tracks timeout tr granted held stamp) (hg : ∀ k, granted' k ↔ granted k)
    (hh : ∀ k, granted k → (held' k ↔ held k)) (hs : ∀ k, granted k → stamp' k = stamp k) :
    Tracks timeout tr granted' held' stamp' := by
  refine ⟨fun k => (hg k).trans (hi.granted_iff k), fun k hk => ?_, fun k hk => ?_, hi.readings⟩
  · rw [hs k ((hg k).mp hk)]
    exact hi.stamped k ((hg k).mp hk)
  · exact (hh k ((hg k).mp hk)).trans (hi.held_iff k ((hg k).mp hk))

/-- A lease is used; if it was not granted before, then it is now. -/
theorem use (hi : Tracks timeout tr granted held stamp) {now : ℕ} {k₀ : κ}
    (hg : ∀ k, granted' k ↔ granted k ∨ k = k₀) (hh : ∀ k, granted k → (held' k ↔ held k))
    (hnew : ¬ granted k₀ → held' k₀ ∧ ¬ Dropped tr k₀)
    (hself : stamp' k₀ = now) (hs : ∀ k, k ≠ k₀ → stamp' k = stamp k) :
    Tracks timeout (tr ++ [(now, Mark.used k₀)]) granted' held' stamp' := by
  have hused : ∀ k u, Used (tr ++ [(now, Mark.used k₀)]) k u ↔ Used tr k u ∨ u = now ∧ k = k₀ := by
    intro k u
    rw [used_snoc, Mark.used.injEq, eq_comm (a := k₀)]
  refine ⟨fun k => ?_, fun k hk => ?_, fun k hk => ?_, readings_snoc hi.readings (by simp)⟩
  · rw [hg, hi.granted_iff]
    simp only [hused, exists_or, exists_eq_left]
  · rw [lastUse_snoc]
    by_cases he : k = k₀
    · rw [he, hself, if_pos rfl]
    · rw [hs k he, if_neg fun h => he (Mark.used.inj h).symm]
      exact hi.stamped k (((hg k).mp hk).resolve_right he)
  · rw [expired_snoc, dropped_snoc, or_iff_left (by simp), or_iff_left (by simp)]
    by_cases hold : granted k
    · exact (hh k hold).trans (hi.held_iff k hold)
    · obtain rfl := ((hg k).mp hk).resolve_left hold
      obtain ⟨hheld, hdrop⟩ := hnew hold
      refine iff_of_true hheld ⟨?_, hdrop⟩
      rintro ⟨pre, post, t, reading, u, rfl, hlast, -⟩
      exact hold ((hi.granted_iff k).mpr ⟨u, List.mem_append_left _ (used_of_lastUse hlast)⟩)

/-- No lease is used: what was granted and the stamps stay. -/
theorem unused (hi : Tracks timeout tr granted held stamp) {now : ℕ} {m : Mark κ}
    (hm : ∀ k, m ≠ .used k) (hr : ∀ reading, m = .checked reading → reading ≤ now)
    (hg : ∀ k, granted' k ↔ granted k)
    (hs : ∀ k, granted k → stamp' k = stamp k)
    (hh : ∀ k, granted k → (held' k ↔
      ¬ Expired timeout (tr ++ [(now, m)]) k ∧ ¬ Dropped (tr ++ [(now, m)]) k)) :
    Tracks timeout (tr ++ [(now, m)]) granted' held' stamp' := by
  refine ⟨fun k => ?_, fun k hk => ?_, fun k hk => hh k ((hg k).mp hk),
    readings_snoc hi.readings hr⟩
  · rw [hg, hi.granted_iff]
    simp only [used_snoc, hm, and_false, or_false]
  · have hk := (hg k).mp hk
    rw [lastUse_snoc, if_neg (hm k), hs k hk]
    exact hi.stamped k hk

/-- A check ends the leases whose stamp is more than the timeout before its reading. -/
theorem check (hi : Tracks timeout tr granted held stamp) {now reading : ℕ}
    (hr : reading ≤ now) (hg : ∀ k, granted' k ↔ granted k)
    (hh : ∀ k, granted k → (held' k ↔ held k ∧ reading ≤ stamp k + timeout))
    (hs : ∀ k, granted k → stamp' k = stamp k) :
    Tracks timeout (tr ++ [(now, Mark.checked reading)]) granted' held' stamp' := by
  refine hi.unused (by simp) (by rintro _ ⟨⟩; exact hr) hg hs fun k hk => ?_
  have hold : (∃ reading' u, (Mark.checked reading : Mark κ) = .checked reading' ∧
      lastUse tr k = some u ∧ u + timeout < reading') ↔ ¬ reading ≤ stamp k + timeout := by
    rw [not_le]
    constructor
    · rintro ⟨_, u, ⟨⟩, hlast, hold⟩
      rwa [← Option.some.inj (hlast.symm.trans (hi.stamped k hk))]
    · exact fun hold => ⟨reading, _, rfl, hi.stamped k hk, hold⟩
  have hdropped : Dropped (tr ++ [(now, Mark.checked reading)]) k ↔ Dropped tr k := by
    rw [dropped_snoc]
    exact or_iff_left (by simp)
  rw [hh k hk, hi.held_iff k hk, expired_snoc, hold, hdropped]
  tauto

/-- A lease is dropped. -/
theorem drop (hi : Tracks timeout tr granted held stamp) {now : ℕ} {k₀ : κ}
    (hg : ∀ k, granted' k ↔ granted k) (hgone : ¬ held' k₀)
    (hh : ∀ k, granted k → k ≠ k₀ → (held' k ↔ held k))
    (hs : ∀ k, granted k → stamp' k = stamp k) :
    Tracks timeout (tr ++ [(now, Mark.dropped k₀)]) granted' held' stamp' := by
  refine hi.unused (by simp) (by simp) hg hs fun k hk => ?_
  rw [expired_snoc, or_iff_left (by simp), dropped_snoc, Mark.dropped.injEq]
  by_cases he : k = k₀
  · rw [he]
    exact iff_of_false hgone fun h => h.2 (Or.inr rfl)
  · rw [hh k hk he, hi.held_iff k hk, or_iff_left (Ne.symm he)]

/-- **Whoever holds a lease has used it not long ago**, if the last check is not long ago and no
stamp is behind an earlier one by more than the delay. -/
theorem used_recently (hi : Tracks timeout tr granted held stamp) {now interval delay : ℕ}
    (hsorted : tr.Pairwise fun x y => x.1 ≤ y.1 + delay)
    (hcheck : CheckedWithin interval tr now) {k : κ} (hgranted : granted k) (hheld : held k) :
    ∃ u, Used tr k u ∧ now ≤ u + (timeout + interval + delay) := by
  obtain ⟨u, hu⟩ := (hi.granted_iff k).mp hgranted
  rcases hcheck with hstart | ⟨t, reading, hm, hnow⟩
  · exact ⟨u, hu, by omega⟩
  · have hreading := hi.readings t reading hm
    obtain ⟨pre, post, rfl⟩ := List.append_of_mem hm
    cases hbefore : lastUse pre k with
    | some v =>
        -- the check let the lease through, so its stamp was recent
        refine ⟨v, List.mem_append_left _ (used_of_lastUse hbefore), ?_⟩
        have hlive := ((hi.held_iff k hgranted).mp hheld).1
        have hrecent : ¬ v + timeout < reading := fun hold =>
          hlive ⟨pre, post, t, reading, v, rfl, hbefore, hold⟩
        omega
    | none =>
        -- the lease was granted after the check
        have hafter : (u, .used k) ∈ post := by
          rcases List.mem_append.mp hu with hu | hu
          · obtain ⟨v, hv⟩ := lastUse_of_used hu
            exact absurd (hbefore.symm.trans hv) (by simp)
          · exact (List.mem_cons.mp hu).resolve_left (by simp)
        have hle : t ≤ u + delay :=
          (List.pairwise_cons.mp (List.pairwise_append.mp hsorted).2.1).1 _ hafter
        exact ⟨u, hu, by omega⟩

end Tracks

end Fproxy.Leases
