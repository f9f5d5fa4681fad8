import Mathlib.Data.List.Basic
import Mathlib.Tactic.Common

/-!
# Buffers of fixed size

A buffer is allocated with its final size and then filled piece by piece, each write at an
offset.  A write never changes the size: what does not fit is left out.

* `write_append` — a write over a middle part replaces this part.
* `write_fill` — a write at the first free position of a buffer under construction.

The library is generic in the alphabet.
-/

namespace Fproxy.Buffer

variable {α : Type*}

/-- Overwrite the buffer from the offset on with as much of the source as fits. -/
def write (buf : List α) (off : ℕ) (src : List α) : List α :=
  buf.take off ++ (src.take (buf.length - off) ++ buf.drop (off + src.length))

theorem write_append {a b c src : List α} {off : ℕ} (ha : a.length = off)
    (hb : b.length = src.length) :
    write (a ++ (b ++ c)) off src = a ++ (src ++ c) := by
  have hroom : src.length ≤ (a ++ (b ++ c)).length - off := by
    rw [List.length_append, List.length_append, ha, hb]
    omega
  have hrest : (a ++ (b ++ c)).drop (off + src.length) = c := by
    rw [← List.append_assoc]
    exact List.drop_left' (by rw [List.length_append, ha, hb])
  rw [write, List.take_left' ha, List.take_of_length_le hroom, hrest]

/-- The free part of a buffer is filled from its start. -/
theorem write_fill {done src : List α} {off n : ℕ} {z : α} (hoff : done.length = off) :
    write (done ++ List.replicate (src.length + n) z) off src =
      done ++ src ++ List.replicate n z := by
  have hfree : List.replicate (src.length + n) z =
      List.replicate src.length z ++ List.replicate n z :=
    List.replicate_add _ _ _
  rw [hfree, write_append hoff List.length_replicate, List.append_assoc]

/-- A source that takes up all of the free part. -/
theorem write_fill_all {done src : List α} {off n : ℕ} {z : α} (hoff : done.length = off)
    (hn : n = src.length) :
    write (done ++ List.replicate n z) off src = done ++ src := by
  subst hn
  have h : write (done ++ List.replicate (src.length + 0) z) off src =
      done ++ src ++ List.replicate 0 z := write_fill hoff
  rwa [Nat.add_zero, List.replicate_zero, List.append_nil] at h

end Fproxy.Buffer
