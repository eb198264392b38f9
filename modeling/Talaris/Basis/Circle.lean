import Mathlib.Data.Nat.ModEq
import Mathlib.Data.List.Range

/-!
# Positions around a ring

A ring of `size` slots is filled and emptied at positions that only grow; the slot of a
position is its remainder.  `span` lists the slots of consecutive positions.  Up to `size`
consecutive positions have slots of their own.  `chunks` cuts a list into the pieces that
consecutive slots take of it.
-/

namespace Talaris.Basis

universe u

section Span

/-- The slots of `count` positions from `first` on. -/
def span (size first count : Nat) : List Nat :=
  (List.range' first count).map (· % size)

variable {size first count : Nat}

@[simp] theorem span_length : (span size first count).length = count := by
  simp [span]

@[simp] theorem span_zero : span size first 0 = [] := rfl

theorem span_succ :
    span size first (count + 1) = first % size :: span size (first + 1) count := by
  simp [span, List.range'_succ]

theorem span_append (more : Nat) :
    span size first count ++ span size (first + count) more =
      span size first (count + more) := by
  rw [span, span, span, ← List.map_append, List.range'_append_1]

/-- A span is its slots one after the other. -/
theorem span_eq_map :
    span size first count = (List.range count).map fun i => (first + i) % size := by
  rw [span, List.range'_eq_map_range, List.map_map]
  rfl

theorem mem_span {slot : Nat} :
    slot ∈ span size first count ↔ ∃ i < count, (first + i) % size = slot := by
  rw [span_eq_map]
  simp

/-- Both parts of a span are spans. -/
theorem span_split {total : Nat} {before after : List Nat}
    (parts : span size first total = before ++ after) :
    before = span size first before.length ∧
      after = span size (first + before.length) after.length := by
  have counted : total = before.length + after.length := by
    rw [← List.length_append, ← parts, span_length]
  rw [counted, ← span_append] at parts
  obtain ⟨left, right⟩ := List.append_inj parts span_length
  exact ⟨left.symm, right.symm⟩

/-- Positions less than a revolution apart have different slots. -/
theorem slot_ne {position later : Nat} (before : position < later)
    (near : later < position + size) : position % size ≠ later % size := by
  intro same
  have whole : size ∣ later - position :=
    (Nat.modEq_iff_dvd' (Nat.le_of_lt before)).mp same
  have short : later - position < size := by omega
  exact absurd (Nat.eq_zero_of_dvd_of_lt whole short) (by omega)

theorem span_disjoint {more : Nat} (fits : count + more ≤ size) {slot : Nat}
    (member : slot ∈ span size first count) : slot ∉ span size (first + count) more := by
  intro later
  obtain ⟨i, inside, rfl⟩ := mem_span.mp member
  obtain ⟨j, within, same⟩ := mem_span.mp later
  exact slot_ne (by omega) (by omega) same.symm

/-- A wrapping counter of `w` bits finds the slot of a ring of `2 ^ k` slots with a mask. -/
theorem wrapped_and_mask {k w : Nat} (narrow : k ≤ w) (position : Nat) :
    position % 2 ^ w &&& (2 ^ k - 1) = position % 2 ^ k := by
  rw [Nat.and_two_pow_sub_one_eq_mod, Nat.mod_mod_of_dvd]
  exact Nat.pow_dvd_pow 2 narrow

end Span

section Chunks

variable {α : Type u}

/-- The pieces of `size` elements; the last one may be shorter. -/
def chunks (size count : Nat) (xs : List α) : List (List α) :=
  (List.range count).map fun i => (xs.drop (i * size)).take size

variable {size count : Nat} {xs : List α}

@[simp] theorem chunks_length : (chunks size count xs).length = count := by
  simp [chunks]

theorem chunks_succ :
    chunks size (count + 1) xs = xs.take size :: chunks size count (xs.drop size) := by
  simp only [chunks, List.range_succ_eq_map, List.map_cons, List.map_map, Nat.zero_mul,
    List.drop_zero, List.cons.injEq, true_and]
  apply List.map_congr_left
  intro i _
  simp only [Function.comp_apply, List.drop_drop, Nat.succ_mul, Nat.add_comm]

/-- Enough pieces make up the whole. -/
theorem chunks_flatten (enough : xs.length ≤ count * size) :
    (chunks size count xs).flatten = xs := by
  induction count generalizing xs with
  | zero =>
      have empty : xs = [] := by simpa using enough
      rw [empty]
      rfl
  | succ count ih =>
      rw [chunks_succ, List.flatten_cons, ih, List.take_append_drop]
      rw [List.length_drop, Nat.sub_le_iff_le_add, ← Nat.succ_mul]
      exact enough

theorem chunks_one (short : xs.length ≤ size) : chunks size 1 xs = [xs] := by
  simp [chunks, List.take_of_length_le short]

theorem length_of_mem_chunks {chunk : List α} (member : chunk ∈ chunks size count xs) :
    chunk.length ≤ size := by
  obtain ⟨i, -, rfl⟩ := List.mem_map.mp member
  exact List.length_take_le _ _

end Chunks

end Talaris.Basis
