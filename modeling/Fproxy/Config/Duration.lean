import Fproxy.Library.Text
import Mathlib.Algebra.BigOperators.Group.List.Defs
import Mathlib.Algebra.Group.Nat.Defs

/-!
# Durations

`std::time::Duration` as far as the configuration builds it, and `parse_duration`.  The text of a
duration is a count and a unit; seconds are meant where no unit stands.

* **`readCount_iff`** — the count and the unit `parse_duration` reads are the ones the text
  denotes.
* **`toNanos_toDuration_iff`** — the duration built from them is `count` times `unit` if and only
  if that many seconds fit the 64 bits they are multiplied in.
-/

namespace Fproxy.Config

open Fproxy.Text

/-- `Duration`: the nanoseconds are less than a second. -/
structure Duration where
  secs : UInt64
  nanos : UInt32
  nanos_lt : nanos.toNat < 1000000000

/-- The length in nanoseconds. -/
def Duration.toNanos (d : Duration) : ℕ := d.secs.toNat * 1000000000 + d.nanos.toNat

/-- `Duration::from_secs`. -/
def Duration.fromSecs (secs : UInt64) : Duration := ⟨secs, 0, by decide⟩

theorem nanosOfMillis_toNat (millis : UInt64) :
    (UInt32.ofNat (millis.toNat % 1000 * 1000000)).toNat = millis.toNat % 1000 * 1000000 := by
  rw [UInt32.toNat_ofNat']
  omega

/-- `Duration::from_millis`. -/
def Duration.fromMillis (millis : UInt64) : Duration :=
  ⟨millis / 1000, UInt32.ofNat (millis.toNat % 1000 * 1000000), by
    rw [nanosOfMillis_toNat]
    omega⟩

/-- `Duration::ZERO`. -/
def Duration.zero : Duration := ⟨0, 0, by decide⟩

/-- `Duration::is_zero`. -/
def Duration.isZero (d : Duration) : Bool := d.secs = 0 && d.nanos = 0

/-- The units of `parse_duration`. -/
inductive TimeUnit where
  | ms
  | s
  | m
  | h
  deriving DecidableEq, Repr

/-- The ways to write a unit. -/
def TimeUnit.spellings : TimeUnit → List (List Char)
  | .ms => ["ms".toList]
  | .s => ["s".toList, []]
  | .m => ["m".toList]
  | .h => ["h".toList]

/-- The length of a unit in nanoseconds. -/
def TimeUnit.nanos : TimeUnit → ℕ
  | .ms => 1000000
  | .s => 1000000000
  | .m => 60 * 1000000000
  | .h => 3600 * 1000000000

/-- What the count is multiplied by before the `Duration` is made. -/
def TimeUnit.factor : TimeUnit → UInt64
  | .ms => 1
  | .s => 1
  | .m => 60
  | .h => 3600

/-- The number and the unit of a text: the first suffix that fits, and seconds without one. -/
def stripUnit (s : List Char) : List Char × TimeUnit :=
  match s.dropSuffix? "ms".toList with
  | some n => (n, .ms)
  | none =>
      match s.dropSuffix? "s".toList with
      | some n => (n, .s)
      | none =>
          match s.dropSuffix? "m".toList with
          | some n => (n, .m)
          | none =>
              match s.dropSuffix? "h".toList with
              | some n => (n, .h)
              | none => (s, .s)

/-- The loop of `u64::from_str`: checked, so that a number past 64 bits is refused. -/
def readU64 : ℕ → List Char → Option ℕ
  | acc, [] => some acc
  | acc, c :: rest =>
      if c.isDigit then
        let next := acc * 10 + (c.toNat - '0'.toNat)
        if next < 2 ^ 64 then readU64 next rest else none
      else none

/-- `u64::from_str`: decimal digits, with a plus sign or without. -/
def parseU64 (s : List Char) : Option UInt64 :=
  let digits := if s.head? = some '+' then s.tail else s
  if digits = [] then none else (readU64 0 digits).map UInt64.ofNat

/-- The count and the unit that `parse_duration` finds in a text. -/
def readCount (s : String) : Option (UInt64 × TimeUnit) :=
  let s := trim s
  if s = "" then none
  else
    let (num, unit) := stripUnit s.toList
    (parseU64 num).map fun n => (n, unit)

/-- The `Duration` of a count, with the multiplication on `u64`. -/
def TimeUnit.toDuration (unit : TimeUnit) (num : UInt64) : Duration :=
  match unit with
  | .ms => .fromMillis num
  | .s => .fromSecs num
  | .m => .fromSecs (num * 60)
  | .h => .fromSecs (num * 3600)

/-- `parse_duration`. -/
def parseDuration (s : String) : Option Duration :=
  (readCount s).map fun r => r.2.toDuration r.1

/-- The value of decimal digits. -/
def decimal (digits : List Char) : ℕ :=
  digits.foldl (fun acc c => acc * 10 + (c.toNat - '0'.toNat)) 0

/-- The text denotes `count` units: decimal digits of a `u64`, with a plus sign or without, and a
spelling of the unit right behind them; white space around it is ignored. -/
def Denotes (text : String) (count : ℕ) (unit : TimeUnit) : Prop :=
  ∃ sign digits spelling, (trim text).toList = sign ++ digits ++ spelling ∧
    (sign = [] ∨ sign = ['+']) ∧ digits ≠ [] ∧ (∀ c ∈ digits, c.isDigit = true) ∧
    decimal digits = count ∧ count < 2 ^ 64 ∧ spelling ∈ unit.spellings

/-! ### Numbers -/

theorem le_decimal (acc : ℕ) (s : List Char) :
    acc ≤ s.foldl (fun acc c => acc * 10 + (c.toNat - '0'.toNat)) acc := by
  induction s generalizing acc with
  | nil => exact Nat.le_refl acc
  | cons c s ih =>
      rw [List.foldl_cons]
      have h := ih (acc * 10 + (c.toNat - '0'.toNat))
      omega

/-- The checks of the loop come down to one check of the number. -/
theorem readU64_iff {acc n : ℕ} {s : List Char} (hacc : acc < 2 ^ 64) :
    readU64 acc s = some n ↔ (∀ c ∈ s, c.isDigit = true) ∧
      s.foldl (fun acc c => acc * 10 + (c.toNat - '0'.toNat)) acc = n ∧ n < 2 ^ 64 := by
  induction s generalizing acc with
  | nil =>
      rw [readU64, Option.some.injEq, List.foldl_nil]
      constructor
      · rintro rfl
        exact ⟨fun _ h => absurd h List.not_mem_nil, rfl, hacc⟩
      · exact fun h => h.2.1
  | cons c s ih =>
      rw [readU64, List.foldl_cons, List.forall_mem_cons]
      by_cases hc : c.isDigit = true
      · by_cases hnext : acc * 10 + (c.toNat - '0'.toNat) < 2 ^ 64
        · simp only [hc, if_true, if_pos hnext, true_and]
          exact ih hnext
        · simp only [hc, if_true, if_neg hnext, true_and]
          constructor
          · intro h
            exact absurd h (by simp)
          · rintro ⟨-, hval, hlt⟩
            have hle := le_decimal (acc * 10 + (c.toNat - '0'.toNat)) s
            omega
      · simp [hc]

theorem plus_not_digit {c : Char} (h : c.isDigit = true) : c ≠ '+' := by
  rintro rfl
  exact absurd h (by decide)

/-- **What `u64::from_str` accepts.** -/
theorem parseU64_iff {s : List Char} {n : UInt64} :
    parseU64 s = some n ↔ ∃ sign digits, s = sign ++ digits ∧ (sign = [] ∨ sign = ['+']) ∧
      digits ≠ [] ∧ (∀ c ∈ digits, c.isDigit = true) ∧ decimal digits = n.toNat := by
  have hread : ∀ digits : List Char, digits ≠ [] →
      (((if digits = [] then none else (readU64 0 digits).map UInt64.ofNat) = some n) ↔
        (∀ c ∈ digits, c.isDigit = true) ∧ decimal digits = n.toNat) := by
    intro digits hne
    have hn : n.toNat < 2 ^ 64 := UInt64.toNat_lt n
    rw [if_neg hne, Option.map_eq_some_iff]
    constructor
    · rintro ⟨k, hk, rfl⟩
      obtain ⟨hdigits, hval, hlt⟩ := (readU64_iff (by decide)).mp hk
      refine ⟨hdigits, ?_⟩
      rw [UInt64.toNat_ofNat', Nat.mod_eq_of_lt hlt]
      exact hval
    · rintro ⟨hdigits, hval⟩
      refine ⟨n.toNat, (readU64_iff (by decide)).mpr ⟨hdigits, hval, hn⟩, ?_⟩
      exact UInt64.ofNat_toNat
  unfold parseU64
  constructor
  · intro h
    by_cases hplus : s.head? = some '+'
    · obtain ⟨t, rfl⟩ : ∃ t, s = '+' :: t := by
        cases s with
        | nil => exact absurd hplus (by simp)
        | cons c t => exact ⟨t, by simpa using hplus⟩
      simp only [List.head?_cons, if_true, List.tail_cons] at h
      have hne : t ≠ [] := by
        rintro rfl
        exact absurd h (by simp)
      obtain ⟨hdigits, hval⟩ := (hread t hne).mp h
      exact ⟨['+'], t, rfl, Or.inr rfl, hne, hdigits, hval⟩
    · simp only [if_neg hplus] at h
      have hne : s ≠ [] := by
        rintro rfl
        exact absurd h (by simp)
      obtain ⟨hdigits, hval⟩ := (hread s hne).mp h
      exact ⟨[], s, rfl, Or.inl rfl, hne, hdigits, hval⟩
  · rintro ⟨sign, digits, rfl, rfl | rfl, hne, hdigits, hval⟩
    · have hplus : ¬ digits.head? = some '+' := by
        cases digits with
        | nil => exact absurd rfl hne
        | cons c t => simpa using plus_not_digit (hdigits c List.mem_cons_self)
      simp only [List.nil_append, if_neg hplus]
      exact (hread digits hne).mpr ⟨hdigits, hval⟩
    · show (if digits = [] then none else _) = some n
      exact (hread digits hne).mpr ⟨hdigits, hval⟩

/-! ### Units -/

/-- The letters that the units are written with. -/
def UnitLetter (c : Char) : Prop := c ∈ ['m', 's', 'h']

instance : DecidablePred UnitLetter := fun c => inferInstanceAs (Decidable (c ∈ ['m', 's', 'h']))

/-- A suffix of letters is part of the spelling, when no letter stands before it. -/
theorem suffix_of_spelling {num spelling p pat : List Char} (hnum : ∀ c ∈ num, ¬ UnitLetter c)
    (hpat : ∀ c ∈ pat, UnitLetter c) (h : num ++ spelling = p ++ pat) :
    ∃ q, p = num ++ q ∧ spelling = q ++ pat := by
  rcases List.append_eq_append_iff.mp h with ⟨q, hp, hspelling⟩ | ⟨q, hnumq, hpatq⟩
  · exact ⟨q, hp, hspelling⟩
  · cases q with
    | nil =>
        rw [List.append_nil] at hnumq
        rw [List.nil_append] at hpatq
        exact ⟨[], by rw [hnumq, List.append_nil], by rw [hpatq, List.nil_append]⟩
    | cons c q =>
        have hn : ¬ UnitLetter c := hnum c (by rw [hnumq]; simp)
        exact absurd (hpat c (by rw [hpatq]; simp)) hn

theorem dropSuffix_eq_some {s pat p : List Char} : s.dropSuffix? pat = some p ↔ s = p ++ pat := by
  rw [List.dropSuffix?_eq_some_iff]
  simp

theorem dropSuffix_spelling {num spelling pat : List Char} (hnum : ∀ c ∈ num, ¬ UnitLetter c)
    (hpat : ∀ c ∈ pat, UnitLetter c) :
    (num ++ spelling).dropSuffix? pat = (spelling.dropSuffix? pat).map (num ++ ·) := by
  apply Option.ext
  intro p
  rw [dropSuffix_eq_some, Option.map_eq_some_iff]
  constructor
  · intro h
    obtain ⟨q, rfl, hq⟩ := suffix_of_spelling hnum hpat h
    exact ⟨q, dropSuffix_eq_some.mpr hq, rfl⟩
  · rintro ⟨q, hq, rfl⟩
    rw [dropSuffix_eq_some.mp hq, List.append_assoc]

/-- **The unit is found behind a number.** -/
theorem stripUnit_append {num spelling : List Char} {unit : TimeUnit}
    (hnum : ∀ c ∈ num, ¬ UnitLetter c) (h : spelling ∈ unit.spellings) :
    stripUnit (num ++ spelling) = (num, unit) := by
  have hms := @dropSuffix_spelling num spelling "ms".toList hnum (by simp [UnitLetter])
  have hs := @dropSuffix_spelling num spelling "s".toList hnum (by simp [UnitLetter])
  have hm := @dropSuffix_spelling num spelling "m".toList hnum (by simp [UnitLetter])
  have hh := @dropSuffix_spelling num spelling "h".toList hnum (by simp [UnitLetter])
  have hnil : num ++ [] = num := List.append_nil num
  rw [stripUnit, hms, hs, hm, hh]
  cases unit with
  | ms =>
      obtain rfl := List.mem_singleton.mp h
      show (num ++ [], TimeUnit.ms) = (num, TimeUnit.ms)
      rw [hnil]
  | s =>
      rcases List.mem_pair.mp h with rfl | rfl
      · show (num ++ [], TimeUnit.s) = (num, TimeUnit.s)
        rw [hnil]
      · show (num ++ [], TimeUnit.s) = (num, TimeUnit.s)
        rw [hnil]
  | m =>
      obtain rfl := List.mem_singleton.mp h
      show (num ++ [], TimeUnit.m) = (num, TimeUnit.m)
      rw [hnil]
  | h =>
      obtain rfl := List.mem_singleton.mp h
      show (num ++ [], TimeUnit.h) = (num, TimeUnit.h)
      rw [hnil]

/-- The number is what stands before a spelling of the unit. -/
theorem stripUnit_eq {s num : List Char} {unit : TimeUnit} (h : stripUnit s = (num, unit)) :
    ∃ spelling ∈ unit.spellings, s = num ++ spelling := by
  unfold stripUnit at h
  split at h
  · next n hn =>
      obtain ⟨rfl, rfl⟩ := Prod.mk.inj h
      exact ⟨_, List.mem_cons_self, dropSuffix_eq_some.mp hn⟩
  · split at h
    · next n hn =>
        obtain ⟨rfl, rfl⟩ := Prod.mk.inj h
        exact ⟨_, List.mem_cons_self, dropSuffix_eq_some.mp hn⟩
    · split at h
      · next n hn =>
          obtain ⟨rfl, rfl⟩ := Prod.mk.inj h
          exact ⟨_, List.mem_cons_self, dropSuffix_eq_some.mp hn⟩
      · split at h
        · next n hn =>
            obtain ⟨rfl, rfl⟩ := Prod.mk.inj h
            exact ⟨_, List.mem_cons_self, dropSuffix_eq_some.mp hn⟩
        · obtain ⟨rfl, rfl⟩ := Prod.mk.inj h
          exact ⟨[], List.mem_cons_of_mem _ List.mem_cons_self, (List.append_nil s).symm⟩

/-- **The count and the unit read are the ones denoted.** -/
theorem readCount_iff {text : String} {n : UInt64} {unit : TimeUnit} :
    readCount text = some (n, unit) ↔ Denotes text n.toNat unit := by
  have hn : n.toNat < 2 ^ 64 := UInt64.toNat_lt n
  unfold readCount
  constructor
  · intro h
    dsimp only at h
    split at h
    · exact absurd h (by simp)
    · cases hstrip : stripUnit (trim text).toList with
      | mk num unit' =>
          simp only [hstrip] at h
          obtain ⟨k, hk, hpair⟩ := Option.map_eq_some_iff.mp h
          obtain ⟨hkn, hunit⟩ := Prod.mk.inj hpair
          rw [hkn] at hk
          rw [hunit] at hstrip
          obtain ⟨spelling, hspelling, hs⟩ := stripUnit_eq hstrip
          obtain ⟨sign, digits, hnum, hsign, hne, hdigits, hval⟩ := parseU64_iff.mp hk
          rw [hnum] at hs
          exact ⟨sign, digits, spelling, hs, hsign, hne, hdigits, hval, hn, hspelling⟩
  · rintro ⟨sign, digits, spelling, hs, hsign, hne, hdigits, hval, -, hspelling⟩
    have hletters : ∀ c ∈ sign ++ digits, ¬ UnitLetter c := by
      intro c hc hletter
      rcases List.mem_append.mp hc with hc | hc
      · rcases hsign with rfl | rfl
        · exact absurd hc List.not_mem_nil
        · obtain rfl := List.mem_singleton.mp hc
          exact absurd hletter (by decide)
      · have hdigit := hdigits c hc
        simp only [UnitLetter, List.mem_cons, List.not_mem_nil, or_false] at hletter
        rcases hletter with rfl | rfl | rfl <;> exact absurd hdigit (by decide)
    have hparse : parseU64 (sign ++ digits) = some n :=
      parseU64_iff.mpr ⟨sign, digits, rfl, hsign, hne, hdigits, hval⟩
    have hempty : trim text ≠ "" := by
      intro h
      rw [h] at hs
      have hnil : sign ++ digits ++ spelling = [] := hs.symm
      simp [hne] at hnil
    dsimp only
    rw [if_neg hempty, hs, stripUnit_append hletters hspelling]
    dsimp only
    rw [hparse, Option.map_some]

example : (parseDuration "100ms").map Duration.toNanos = some 100000000 := by decide
example : (parseDuration " +5m ").map Duration.toNanos = some 300000000000 := by decide
example : (parseDuration "5 m").map Duration.toNanos = none := by decide

/-! ### The duration built -/

theorem toNanos_fromSecs (secs : UInt64) :
    (Duration.fromSecs secs).toNanos = secs.toNat * 1000000000 := by
  simp [Duration.fromSecs, Duration.toNanos]

theorem toNanos_fromMillis (millis : UInt64) :
    (Duration.fromMillis millis).toNanos = millis.toNat * 1000000 := by
  have hsecs : (millis / 1000).toNat = millis.toNat / 1000 := UInt64.toNat_div millis 1000
  rw [Duration.fromMillis, Duration.toNanos, nanosOfMillis_toNat, hsecs]
  omega

theorem isZero_iff (d : Duration) : d.isZero = true ↔ d.toNanos = 0 := by
  have hsecs : d.secs = 0 ↔ d.secs.toNat = 0 := UInt64.toNat_inj.symm
  have hnanos : d.nanos = 0 ↔ d.nanos.toNat = 0 := UInt32.toNat_inj.symm
  rw [Duration.isZero, Duration.toNanos, Bool.and_eq_true, decide_eq_true_iff, decide_eq_true_iff,
    hsecs, hnanos]
  omega

/-- **The duration is count times unit if and only if the multiplication does not wrap around.** -/
theorem toNanos_toDuration_iff (unit : TimeUnit) (num : UInt64) :
    (unit.toDuration num).toNanos = num.toNat * unit.nanos ↔
      num.toNat * unit.factor.toNat < 2 ^ 64 := by
  have hnum : num.toNat < 2 ^ 64 := UInt64.toNat_lt num
  cases unit with
  | ms =>
      have h := toNanos_fromMillis num
      simpa [TimeUnit.toDuration, TimeUnit.nanos, TimeUnit.factor, h] using hnum
  | s =>
      have h := toNanos_fromSecs num
      simpa [TimeUnit.toDuration, TimeUnit.nanos, TimeUnit.factor, h] using hnum
  | m =>
      have hmul : (num * 60).toNat = num.toNat * 60 % 2 ^ 64 := UInt64.toNat_mul num 60
      have hfactor : TimeUnit.m.factor.toNat = 60 := rfl
      rw [TimeUnit.toDuration, toNanos_fromSecs, hmul, TimeUnit.nanos, hfactor]
      omega
  | h =>
      have hmul : (num * 3600).toNat = num.toNat * 3600 % 2 ^ 64 := UInt64.toNat_mul num 3600
      have hfactor : TimeUnit.h.factor.toNat = 3600 := rfl
      rw [TimeUnit.toDuration, toNanos_fromSecs, hmul, TimeUnit.nanos, hfactor]
      omega

end Fproxy.Config
