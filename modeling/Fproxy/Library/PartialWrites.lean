import Mathlib.Data.List.Infix
import Mathlib.Tactic.Common

/-!
# Pieces written in part

A writer hands whole pieces to a stream one after the other, and each goes out up to some point.
A piece that went out in part is cut off.

* `Piece` — a piece and how much of it is out.
* `Silent ps` — nothing goes out after a piece that was cut off.
* `stream_of_silent` — then the stream is complete pieces and at most one incomplete piece.
* `stream_of_silent_eq` — the complete pieces are those that are out as a whole.

The library is generic in the alphabet.
-/

namespace Fproxy.PartialWrites

variable {α : Type*}

/-- A piece of a stream and how many of its elements are out. -/
structure Piece (α : Type*) where
  whole : List α
  written : ℕ
  written_le : written ≤ whole.length
  deriving DecidableEq

namespace Piece

/-- A piece of which nothing is out yet. -/
def start (whole : List α) : Piece α := ⟨whole, 0, Nat.zero_le _⟩

/-- What is out of a piece. -/
def out (p : Piece α) : List α := p.whole.take p.written

/-- What is still to go out. -/
def rest (p : Piece α) : List α := p.whole.drop p.written

/-- The stream took `n` more elements, or all that were left. -/
def accept (p : Piece α) (n : ℕ) : Piece α :=
  ⟨p.whole, min (p.written + n) p.whole.length, Nat.min_le_right _ _⟩

/-- The piece went out in part. -/
def Cut (p : Piece α) : Prop := 0 < p.written ∧ p.written < p.whole.length

instance (p : Piece α) : Decidable p.Cut := by
  unfold Cut
  infer_instance

@[simp] theorem out_start (whole : List α) : (start whole).out = [] := rfl

theorem rest_length (p : Piece α) : p.rest.length = p.whole.length - p.written :=
  List.length_drop

theorem out_accept (p : Piece α) (n : ℕ) : (p.accept n).out = p.out ++ p.rest.take n := by
  have htake : p.whole.take (min (p.written + n) p.whole.length) = p.whole.take (p.written + n) := by
    rw [← List.take_take, List.take_length]
  show p.whole.take (min (p.written + n) p.whole.length) = _
  rw [htake, List.take_add]
  rfl

theorem written_accept_of_le {p : Piece α} {n : ℕ} (h : n ≤ p.rest.length) :
    (p.accept n).written = p.written + n := by
  have hle := p.written_le
  rw [rest_length] at h
  show min (p.written + n) p.whole.length = p.written + n
  omega

/-- A piece that was not cut off is out as a whole or not at all. -/
theorem out_of_not_cut {p : Piece α} (h : ¬ p.Cut) : p.out = p.whole ∨ p.out = [] := by
  have hle := p.written_le
  rcases Nat.eq_zero_or_pos p.written with h0 | hpos
  · right
    rw [out, h0, List.take_zero]
  · left
    have hfull : p.whole.length ≤ p.written := Nat.not_lt.mp fun hlt => h ⟨hpos, hlt⟩
    exact List.take_of_length_le hfull

theorem out_of_written_eq_zero {p : Piece α} (h : p.written = 0) : p.out = [] := by
  rw [out, h, List.take_zero]

end Piece

/-- What is on the stream after these pieces. -/
def stream (ps : List (Piece α)) : List α := (ps.map Piece.out).flatten

/-- Nothing goes out after a piece that was cut off. -/
def Silent (ps : List (Piece α)) : Prop := ps.Pairwise fun p q => p.Cut → q.written = 0

@[simp] theorem stream_nil : stream ([] : List (Piece α)) = [] := rfl

theorem stream_append (ps qs : List (Piece α)) : stream (ps ++ qs) = stream ps ++ stream qs := by
  rw [stream, List.map_append, List.flatten_append]
  rfl

theorem stream_cons (p : Piece α) (ps : List (Piece α)) : stream (p :: ps) = p.out ++ stream ps := by
  rw [stream, List.map_cons, List.flatten_cons]
  rfl

theorem stream_of_written_eq_zero {ps : List (Piece α)} (h : ∀ p ∈ ps, p.written = 0) :
    stream ps = [] := by
  induction ps with
  | nil => rfl
  | cons p ps ih =>
      rw [stream_cons, Piece.out_of_written_eq_zero (h p List.mem_cons_self),
        ih fun q hq => h q (List.mem_cons_of_mem _ hq)]
      rfl

theorem silent_append_iff {ps : List (Piece α)} {p : Piece α} :
    Silent (ps ++ [p]) ↔ Silent ps ∧ ∀ q ∈ ps, q.Cut → p.written = 0 := by
  rw [Silent, List.pairwise_append]
  constructor
  · rintro ⟨hps, _, hlast⟩
    exact ⟨hps, fun q hq => hlast q hq p List.mem_cons_self⟩
  · rintro ⟨hps, hlast⟩
    refine ⟨hps, List.pairwise_singleton _ _, fun q hq r hr => ?_⟩
    rw [List.mem_singleton.mp hr]
    exact hlast q hq

/-- **Complete pieces and at most one incomplete.**  If nothing goes out after a cut, the stream
consists of whole pieces, in order, and of a proper prefix of one piece. -/
theorem stream_of_silent {ps : List (Piece α)} (h : Silent ps) :
    ∃ (done : List (List α)) (part : List α), stream ps = done.flatten ++ part ∧
      done.Sublist (ps.map Piece.whole) ∧
      (part = [] ∨ ∃ p ∈ ps, part <+: p.whole ∧ part ≠ p.whole) := by
  induction ps with
  | nil => exact ⟨[], [], rfl, List.Sublist.refl _, Or.inl rfl⟩
  | cons p ps ih =>
      obtain ⟨hlater, hps⟩ := List.pairwise_cons.mp h
      rw [stream_cons]
      by_cases hcut : p.Cut
      · -- the cut piece is the incomplete one
        refine ⟨[], p.out, ?_, List.nil_sublist _,
          Or.inr ⟨p, List.mem_cons_self, List.take_prefix _ _, ?_⟩⟩
        · rw [stream_of_written_eq_zero fun q hq => hlater q hq hcut, List.append_nil]
          rfl
        · intro hwhole
          have hlen : p.out.length = p.written := List.length_take_of_le p.written_le
          rw [hwhole] at hlen
          exact absurd hlen (Nat.ne_of_gt hcut.2)
      · obtain ⟨done, part, hstream, hdone, hpart⟩ := ih hps
        have hpart' : part = [] ∨ ∃ q ∈ p :: ps, part <+: q.whole ∧ part ≠ q.whole :=
          hpart.imp_right fun ⟨q, hq, hpre⟩ => ⟨q, List.mem_cons_of_mem _ hq, hpre⟩
        rcases Piece.out_of_not_cut hcut with hout | hout
        · refine ⟨p.whole :: done, part, ?_, hdone.cons_cons _, hpart'⟩
          rw [hout, hstream, List.flatten_cons, List.append_assoc]
        · refine ⟨done, part, ?_, hdone.cons _, hpart'⟩
          rw [hout, hstream, List.nil_append]

/-- The piece is out as a whole. -/
def Piece.full (p : Piece α) : Bool := p.written = p.whole.length

/-- **Which pieces are complete.**  If nothing goes out after a cut, the stream consists of the
pieces that are out as a whole and of what is out of a piece that is not. -/
theorem stream_of_silent_eq {ps : List (Piece α)} (h : Silent ps) :
    ∃ part, stream ps = ((ps.filter Piece.full).map Piece.whole).flatten ++ part ∧
      (part = [] ∨ ∃ p ∈ ps, part <+: p.whole ∧ part ≠ p.whole) := by
  induction ps with
  | nil => exact ⟨[], rfl, Or.inl rfl⟩
  | cons p ps ih =>
      obtain ⟨hlater, hps⟩ := List.pairwise_cons.mp h
      obtain ⟨part, hstream, hpart⟩ := ih hps
      have hpart' : part = [] ∨ ∃ q ∈ p :: ps, part <+: q.whole ∧ part ≠ q.whole :=
        hpart.imp_right fun ⟨q, hq, hpre⟩ => ⟨q, List.mem_cons_of_mem _ hq, hpre⟩
      rw [stream_cons]
      by_cases hfull : p.full = true
      · have hlen : p.whole.length ≤ p.written := Nat.le_of_eq (of_decide_eq_true hfull).symm
        have hout : p.out = p.whole := List.take_of_length_le hlen
        refine ⟨part, ?_, hpart'⟩
        rw [List.filter_cons_of_pos hfull, List.map_cons, List.flatten_cons, hout, hstream,
          List.append_assoc]
      · have hlt : p.written < p.whole.length :=
          Nat.lt_of_le_of_ne p.written_le fun he => hfull (decide_eq_true he)
        rw [List.filter_cons_of_neg hfull]
        rcases Nat.eq_zero_or_pos p.written with h0 | hpos
        · refine ⟨part, ?_, hpart'⟩
          rw [Piece.out_of_written_eq_zero h0, hstream, List.nil_append]
        · -- the cut piece is the incomplete one, and nothing of the others is out
          have hsilent : ∀ q ∈ ps, q.written = 0 := fun q hq => hlater q hq ⟨hpos, hlt⟩
          have hnone : (ps.filter Piece.full).map Piece.whole = List.replicate
              (ps.filter Piece.full).length [] := by
            refine List.eq_replicate_iff.mpr ⟨List.length_map .., fun w hw => ?_⟩
            obtain ⟨q, hq, rfl⟩ := List.mem_map.mp hw
            obtain ⟨hq, hqf⟩ := List.mem_filter.mp hq
            have hlen : q.written = q.whole.length := of_decide_eq_true hqf
            exact List.length_eq_zero_iff.mp (hlen.symm.trans (hsilent q hq))
          refine ⟨p.out, ?_, Or.inr ⟨p, List.mem_cons_self, List.take_prefix _ _, ?_⟩⟩
          · rw [stream_of_written_eq_zero hsilent, hnone, List.flatten_replicate_nil,
              List.append_nil, List.nil_append]
          · intro hwhole
            have hlen : p.out.length = p.written := List.length_take_of_le p.written_le
            rw [hwhole] at hlen
            omega

end Fproxy.PartialWrites
