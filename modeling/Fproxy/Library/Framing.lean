import Mathlib.Data.List.Infix
import Mathlib.Tactic.Common

/-!
# Length-prefixed framing of a stream

A frame is a header of fixed size followed by a body whose length the header names.  The library
is generic in the alphabet and in how a header is read; a header may also name no length at all,
which ends the stream.

* `Framed F bodies s` — `s` is exactly the concatenation of complete frames with these bodies.
* `parse F s` — the bodies of the longest prefix of `s` made of complete frames, and what is
  left.  `parse_spec` and `maximalFramed_parse` say that this prefix is the maximal one.
* `readExact n cs` — fill a buffer of `n` elements from a stream that arrives cut into the
  chunks `cs`.  `readExact_eq_some` and `readExact_eq_none` say that the cuts do not matter.
-/

namespace Fproxy.Framing

variable {α : Type*}

/-- A frame format: `bodyLength` reads a header of `headerSize` elements. -/
structure Format (α : Type*) where
  headerSize : ℕ
  bodyLength : List α → Option ℕ
  headerSize_pos : 0 < headerSize

/-- A header of this format naming the length of this body. -/
structure Format.Heads (F : Format α) (header body : List α) : Prop where
  size : header.length = F.headerSize
  length : F.bodyLength header = some body.length

/-- The stream is the concatenation of complete frames with these bodies. -/
inductive Framed (F : Format α) : List (List α) → List α → Prop
  | nil : Framed F [] []
  | cons {header body s : List α} {bodies : List (List α)} :
      F.Heads header body → Framed F bodies s → Framed F (body :: bodies) (header ++ (body ++ s))

/-- The first complete frame of a stream: its body and the rest of the stream. -/
def next (F : Format α) (s : List α) : Option (List α × List α) :=
  if s.length < F.headerSize then none
  else match F.bodyLength (s.take F.headerSize) with
    | none => none
    | some n =>
        if (s.drop F.headerSize).length < n then none
        else some ((s.drop F.headerSize).take n, (s.drop F.headerSize).drop n)

theorem next_append {F : Format α} {header body : List α} (h : F.Heads header body)
    (s : List α) : next F (header ++ (body ++ s)) = some (body, s) := by
  have hlen : ¬ (header ++ (body ++ s)).length < F.headerSize := by
    rw [List.length_append, h.size]
    omega
  rw [next, if_neg hlen, List.take_left' h.size, List.drop_left' h.size, h.length]
  have hbody : ¬ (body ++ s).length < body.length := by
    rw [List.length_append]
    omega
  simp only [hbody, if_false, List.take_left, List.drop_left]

theorem next_eq_some {F : Format α} {s body rest : List α} (h : next F s = some (body, rest)) :
    ∃ header, F.Heads header body ∧ s = header ++ (body ++ rest) := by
  unfold next at h
  split at h
  · exact absurd h (by simp)
  · next hlen =>
      split at h
      · exact absurd h (by simp)
      · next n hn =>
          split at h
          · exact absurd h (by simp)
          · next hbody =>
              simp only [Option.some.injEq, Prod.mk.injEq] at h
              obtain ⟨rfl, rfl⟩ := h
              refine ⟨s.take F.headerSize, ⟨List.length_take_of_le (by omega), ?_⟩, ?_⟩
              · rw [hn, List.length_take_of_le (by omega)]
              · rw [List.take_append_drop, List.take_append_drop]

/-- No frame begins a stream shorter than a header. -/
theorem next_of_short {F : Format α} {s : List α} (h : s.length < F.headerSize) :
    next F s = none := by
  rw [next, if_pos h]

/-- No frame begins with a header that names no length. -/
theorem next_of_bad_header {F : Format α} {header s : List α} (hsize : header.length = F.headerSize)
    (h : F.bodyLength header = none) : next F (header ++ s) = none := by
  unfold next
  split
  · rfl
  · rw [List.take_left' hsize, h]

/-- No frame begins with a header naming more than what follows. -/
theorem next_of_short_body {F : Format α} {header s : List α} {n : ℕ}
    (hsize : header.length = F.headerSize) (h : F.bodyLength header = some n)
    (hlt : s.length < n) : next F (header ++ s) = none := by
  unfold next
  split
  · rfl
  · simp only [List.take_left' hsize, List.drop_left' hsize, h, hlt, if_true]

theorem next_length_lt {F : Format α} {s body rest : List α}
    (h : next F s = some (body, rest)) : rest.length < s.length := by
  obtain ⟨header, hh, rfl⟩ := next_eq_some h
  have hpos := F.headerSize_pos
  rw [List.length_append, List.length_append, hh.size]
  omega

/-- The bodies of the complete frames a stream begins with, and what is left of it. -/
def parse (F : Format α) (s : List α) : List (List α) × List α :=
  match _h : next F s with
  | none => ([], s)
  | some (body, rest) => (body :: (parse F rest).1, (parse F rest).2)
termination_by s.length
decreasing_by all_goals exact next_length_lt _h

theorem parse_of_none {F : Format α} {s : List α} (h : next F s = none) :
    parse F s = ([], s) := by
  rw [parse]
  split
  · rfl
  · next hs => rw [h] at hs; exact absurd hs (by simp)

theorem parse_of_some {F : Format α} {s body rest : List α} (h : next F s = some (body, rest)) :
    parse F s = (body :: (parse F rest).1, (parse F rest).2) := by
  rw [parse]
  split
  · next hs => rw [h] at hs; exact absurd hs (by simp)
  · next body' rest' hs =>
      rw [h, Option.some.injEq, Prod.mk.injEq] at hs
      obtain ⟨rfl, rfl⟩ := hs
      rfl

/-- Complete frames in front of a stream are parsed first. -/
theorem Framed.parse_append {F : Format α} {bodies : List (List α)} {p : List α}
    (h : Framed F bodies p) (s : List α) :
    parse F (p ++ s) = (bodies ++ (parse F s).1, (parse F s).2) := by
  induction h with
  | nil => rfl
  | cons hh _ ih =>
      rw [List.append_assoc, List.append_assoc, parse_of_some (next_append hh _), ih]
      rfl

/-- What `parse` returns: complete frames, and a rest that begins with none. -/
theorem parse_spec (F : Format α) (s : List α) :
    ∃ p, Framed F (parse F s).1 p ∧ s = p ++ (parse F s).2 ∧ next F (parse F s).2 = none := by
  induction hn : s.length using Nat.strong_induction_on generalizing s with
  | _ n ih =>
    cases hnext : next F s with
    | none =>
        rw [parse_of_none hnext]
        exact ⟨[], Framed.nil, rfl, hnext⟩
    | some r =>
        obtain ⟨body, rest⟩ := r
        obtain ⟨p, hp, hrest, hstop⟩ := ih rest.length (hn ▸ next_length_lt hnext) rest rfl
        obtain ⟨header, hh, rfl⟩ := next_eq_some hnext
        rw [parse_of_some hnext]
        refine ⟨header ++ (body ++ p), Framed.cons hh hp, ?_, hstop⟩
        show header ++ (body ++ rest) = _
        rw [List.append_assoc, List.append_assoc, ← hrest]

/-- Concatenated framed streams are framed. -/
theorem Framed.append {F : Format α} {xs ys : List (List α)} {p q : List α}
    (hp : Framed F xs p) (hq : Framed F ys q) : Framed F (xs ++ ys) (p ++ q) := by
  induction hp with
  | nil => exact hq
  | cons hh _ ih =>
      rw [List.append_assoc, List.append_assoc]
      exact Framed.cons hh ih

/-- A stream is cut into frames in one way only. -/
theorem Framed.unique {F : Format α} {xs ys : List (List α)} {p : List α}
    (hx : Framed F xs p) (hy : Framed F ys p) : xs = ys := by
  have hpx := hx.parse_append []
  have hpy := hy.parse_append []
  rw [hpx, Prod.mk.injEq] at hpy
  exact List.append_cancel_right hpy.1

/-- `p` is the longest prefix of `s` made of complete frames, and these are their bodies. -/
structure MaximalFramed (F : Format α) (s : List α) (bodies : List (List α)) (p : List α) :
    Prop where
  framed : Framed F bodies p
  isPrefix : p <+: s
  longest : ∀ bodies' q, Framed F bodies' q → q <+: s → q <+: p

/-- `parse` returns the bodies of the longest prefix made of complete frames. -/
theorem maximalFramed_parse (F : Format α) (s : List α) :
    ∃ p, MaximalFramed F s (parse F s).1 p ∧ s = p ++ (parse F s).2 ∧
      next F (parse F s).2 = none := by
  obtain ⟨p, hp, hs, hstop⟩ := parse_spec F s
  refine ⟨p, ⟨hp, ⟨_, hs.symm⟩, fun bodies' q hq hqs => ?_⟩, hs, hstop⟩
  obtain ⟨suf, rfl⟩ := hqs
  -- the frames of `q` are parsed first, so what is parsed after them continues `q`
  rw [hq.parse_append] at hp hs
  obtain ⟨p', hp', hsuf, _⟩ := parse_spec F suf
  have hq' := hq.append hp'
  have heq : p = q ++ p' := by
    have hflat : (q ++ p') ++ (parse F suf).2 = p ++ (parse F suf).2 := by
      rw [← hs, List.append_assoc, ← hsuf]
    exact (List.append_cancel_right hflat).symm
  exact ⟨p', heq.symm⟩

theorem MaximalFramed.unique {F : Format α} {s : List α} {xs ys : List (List α)} {p q : List α}
    (hp : MaximalFramed F s xs p) (hq : MaximalFramed F s ys q) : xs = ys ∧ p = q := by
  have hpq : p = q :=
    List.IsPrefix.eq_of_length_le (hq.longest xs p hp.framed hp.isPrefix)
      (hp.longest ys q hq.framed hq.isPrefix).length_le
  subst hpq
  exact ⟨hp.framed.unique hq.framed, rfl⟩

/-! ### Reading a stream that arrives in chunks -/

/-- Fill a buffer of `n` elements from the chunks still to come; `none` when they run out. -/
def readExact : ℕ → List (List α) → Option (List α × List (List α))
  | 0, cs => some ([], cs)
  | _ + 1, [] => none
  | n + 1, c :: cs =>
      if c.length ≤ n + 1 then (readExact (n + 1 - c.length) cs).map fun r => (c ++ r.1, r.2)
      else some (c.take (n + 1), c.drop (n + 1) :: cs)

/-- **The cuts do not matter.**  A successful read takes the next `n` elements of the stream. -/
theorem readExact_eq_some {n : ℕ} {cs cs' : List (List α)} {got : List α}
    (h : readExact n cs = some (got, cs')) :
    got.length = n ∧ cs.flatten = got ++ cs'.flatten := by
  induction cs generalizing n got cs' with
  | nil =>
      cases n with
      | zero =>
          simp only [readExact, Option.some.injEq, Prod.mk.injEq] at h
          obtain ⟨rfl, rfl⟩ := h
          exact ⟨rfl, rfl⟩
      | succ n => exact absurd h (by simp [readExact])
  | cons c cs ih =>
      cases n with
      | zero =>
          simp only [readExact, Option.some.injEq, Prod.mk.injEq] at h
          obtain ⟨rfl, rfl⟩ := h
          exact ⟨rfl, rfl⟩
      | succ n =>
          rw [readExact] at h
          split at h
          · next hle =>
              rw [Option.map_eq_some_iff] at h
              obtain ⟨⟨got', cs''⟩, hr, he⟩ := h
              obtain ⟨rfl, rfl⟩ := Prod.mk.inj he
              obtain ⟨hlen, hflat⟩ := ih hr
              refine ⟨?_, ?_⟩
              · rw [List.length_append, hlen]
                omega
              · rw [List.flatten_cons, hflat, List.append_assoc]
          · next hgt =>
              simp only [Option.some.injEq, Prod.mk.injEq] at h
              obtain ⟨rfl, rfl⟩ := h
              refine ⟨List.length_take_of_le (by omega), ?_⟩
              rw [List.flatten_cons, List.flatten_cons, ← List.append_assoc,
                List.take_append_drop]

/-- A read fails exactly when the stream is too short. -/
theorem readExact_eq_none {n : ℕ} {cs : List (List α)} :
    readExact n cs = none ↔ cs.flatten.length < n := by
  induction cs generalizing n with
  | nil => cases n <;> simp [readExact]
  | cons c cs ih =>
      cases n with
      | zero => simp [readExact]
      | succ n =>
          rw [readExact, List.flatten_cons, List.length_append]
          split
          · rw [Option.map_eq_none_iff, ih]
            omega
          · simp only [reduceCtorEq, false_iff]
            omega

end Fproxy.Framing
