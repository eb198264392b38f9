import Mathlib

/-!
# Loops that work in place

A loop goes over a buffer from front to back and replaces what it passes, a block at a time while
a whole block is left and then one element at a time.  Block by block or not, the outcome is the
same as long as every block gets what its elements would get at their positions.
-/

namespace Talaris.Basis

universe u

variable {α : Type u}

/-- The elements at the positions from `i` on. -/
def slice (buf : List α) (i size : Nat) : List α := (buf.drop i).take size

/-- The buffer with a block written over the elements from `i` on. -/
def splice (buf : List α) (i : Nat) (block : List α) : List α :=
  buf.take i ++ block ++ buf.drop (i + block.length)

theorem slice_length {buf : List α} {i size : Nat} (inside : i + size ≤ buf.length) :
    (slice buf i size).length = size := by
  rw [slice, List.length_take, List.length_drop]
  omega

theorem getElem?_slice {buf : List α} {i size j : Nat} (within : j < size) :
    (slice buf i size)[j]? = buf[i + j]? := by
  rw [slice, List.getElem?_take_of_lt within, List.getElem?_drop]

theorem getElem?_splice {buf block : List α} {i : Nat} (inside : i + block.length ≤ buf.length)
    (j : Nat) :
    (splice buf i block)[j]? =
      if i ≤ j ∧ j < i + block.length then block[j - i]? else buf[j]? := by
  have front : (buf.take i).length = i := by
    rw [List.length_take]
    omega
  have both : (buf.take i ++ block).length = i + block.length := by
    rw [List.length_append, front]
  rw [splice]
  by_cases before : j < i
  · rw [if_neg (by omega), List.getElem?_append_left (by omega),
      List.getElem?_append_left (by omega), List.getElem?_take_of_lt before]
  · by_cases covered : j < i + block.length
    · rw [if_pos ⟨by omega, covered⟩, List.getElem?_append_left (by omega),
        List.getElem?_append_right (by omega), front]
    · rw [if_neg (by omega), List.getElem?_append_right (by omega), both,
        List.getElem?_drop]
      congr 1
      omega

theorem slice_drop (buf : List α) (first i size : Nat) :
    slice (buf.drop first) i size = slice buf (first + i) size := by
  rw [slice, slice, List.drop_drop]

/-- A block whose lanes are replaced one after the other. -/
theorem flatten_lanes (size count : Nat) {block : List α} (g : Nat → α → α)
    (sized : block.length = size * count) :
    (List.ofFn fun lane : Fin count =>
        (slice block (size * lane) size).mapIdx fun j => g (size * lane + j)).flatten =
      block.mapIdx g := by
  induction count generalizing block g with
  | zero =>
      have empty : block = [] := List.eq_nil_of_length_eq_zero sized
      simp [empty]
  | succ count ih =>
      have rest : (block.drop size).length = size * count := by
        rw [List.length_drop, sized, Nat.mul_succ, Nat.add_sub_cancel]
      have front : (block.take size).length = size := by
        rw [List.length_take, sized, Nat.mul_succ]
        omega
      have later (lane : Fin count) :
          ((slice block (size * (lane + 1)) size).mapIdx fun j => g (size * (lane + 1) + j)) =
            (slice (block.drop size) (size * lane) size).mapIdx
              fun j => g (size + (size * lane + j)) := by
        have place : size * (lane + 1) = size + size * lane := by
          rw [Nat.mul_succ, Nat.add_comm]
        rw [slice_drop, place]
        simp only [Nat.add_assoc]
      have tail := ih (fun j => g (size + j)) rest
      calc _ = (block.take size).mapIdx g ++ (block.drop size).mapIdx fun j => g (size + j) := by
            rw [List.ofFn_succ, List.flatten_cons, ← tail]
            simp only [Fin.val_zero, Nat.mul_zero, Nat.zero_add, Fin.val_succ, later]
            rfl
        _ = ((block.take size) ++ (block.drop size)).mapIdx g := by
            rw [List.mapIdx_append, front]
            simp only [Nat.add_comm]
        _ = block.mapIdx g := by rw [List.take_append_drop]

/-- Two lists combined, the second of them known by position. -/
theorem zipWith_eq_mapIdx {β : Type u} (f : α → β → α) {xs : List α} {ys : List β} {y : Nat → β}
    (known : ∀ j < xs.length, ys[j]? = some (y j)) :
    List.zipWith f xs ys = xs.mapIdx fun j x => f x (y j) := by
  apply List.ext_getElem?
  intro j
  rw [List.getElem?_zipWith, List.getElem?_mapIdx]
  by_cases inside : j < xs.length
  · rw [known j inside, List.getElem?_eq_getElem inside]
    rfl
  · rw [List.getElem?_eq_none (by omega)]
    rfl

/-! ## Progress through a buffer -/

/-- Everything before position `i` has been replaced, the rest has not. -/
def DoneTo (g : Nat → α → α) (orig : List α) (i : Nat) (buf : List α) : Prop :=
  ∀ j, buf[j]? = orig[j]?.map (if j < i then g j else id)

namespace DoneTo

variable {g : Nat → α → α} {orig buf : List α} {i : Nat}

theorem start (g : Nat → α → α) (orig : List α) : DoneTo g orig 0 orig := by
  intro j
  simp

theorem length_eq (done : DoneTo g orig i buf) : buf.length = orig.length := by
  apply Nat.le_antisymm
  · rw [← List.getElem?_eq_none_iff, done, List.getElem?_eq_none (Nat.le_refl _)]
    rfl
  · have past := done buf.length
    rw [List.getElem?_eq_none (Nat.le_refl _)] at past
    exact List.getElem?_eq_none_iff.mp (Option.map_eq_none_iff.mp past.symm)

/-- The whole buffer has been replaced. -/
theorem finish (done : DoneTo g orig i buf) (covers : orig.length ≤ i) :
    buf = orig.mapIdx g := by
  apply List.ext_getElem?
  intro j
  rw [done, List.getElem?_mapIdx]
  by_cases inside : j < i
  · rw [if_pos inside]
  · rw [List.getElem?_eq_none (by omega)]
    rfl

/-- A block that got what its elements get at their positions. -/
theorem block {size : Nat} (done : DoneTo g orig i buf) (inside : i + size ≤ orig.length) :
    DoneTo g orig (i + size)
      (splice buf i ((slice buf i size).mapIdx fun j => g (i + j))) := by
  have fits : i + size ≤ buf.length := by rw [done.length_eq]; exact inside
  have sized : ((slice buf i size).mapIdx fun j => g (i + j)).length = size := by
    rw [List.length_mapIdx, slice_length fits]
  intro j
  rw [getElem?_splice (by rw [sized]; exact fits), sized]
  by_cases here : i ≤ j ∧ j < i + size
  · have place : i + (j - i) = j := by omega
    rw [if_pos here, if_pos here.2, List.getElem?_mapIdx, getElem?_slice (by omega), place, done,
      if_neg (by omega), Option.map_id]
    rfl
  · rw [if_neg here, done]
    by_cases before : j < i
    · rw [if_pos before, if_pos (by omega)]
    · rw [if_neg before, if_neg (by omega)]

/-- One element. -/
theorem element (done : DoneTo g orig i buf) : DoneTo g orig (i + 1) (buf.modify i (g i)) := by
  intro j
  rw [List.getElem?_modify, done]
  by_cases here : i = j
  · subst here
    simp
  · simp only [if_neg here, Option.map_eq_map, Option.map_id']
    by_cases before : j < i
    · rw [if_pos before, if_pos (by omega)]
    · rw [if_neg before, if_neg (by omega)]

end DoneTo

/-! ## The block loop -/

/-- Whole blocks up to `len` are replaced; the loop answers with the position it stopped at. -/
def blockLoop (size : Nat) [NeZero size] (step : List α → List α) (len : Nat) (buf : List α)
    (i : Nat) : List α × Nat :=
  if i + size ≤ len then
    blockLoop size step len (splice buf i (step (slice buf i size))) (i + size)
  else (buf, i)
  termination_by len - i
  decreasing_by
    have positive := NeZero.pos size
    omega

/-- A step that treats a block at a multiple of its size element by element. -/
def Blockwise (size : Nat) (g : Nat → α → α) (step : List α → List α) : Prop :=
  ∀ i, size ∣ i → ∀ block : List α, block.length = size →
    step block = block.mapIdx fun j => g (i + j)

theorem blockLoop_done {size : Nat} [NeZero size] {g : Nat → α → α} {step : List α → List α}
    (blockwise : Blockwise size g step) {orig buf : List α} {i : Nat}
    (done : DoneTo g orig i buf) (aligned : size ∣ i) :
    DoneTo g orig (blockLoop size step orig.length buf i).2
        (blockLoop size step orig.length buf i).1 ∧
      size ∣ (blockLoop size step orig.length buf i).2 := by
  induction rest : orig.length - i using Nat.strong_induction_on generalizing buf i with
  | _ rest ih =>
      subst rest
      rw [blockLoop]
      split
      next inside =>
        have fits : i + size ≤ buf.length := by rw [done.length_eq]; exact inside
        have positive := NeZero.pos size
        rw [blockwise i aligned _ (slice_length fits)]
        apply ih (orig.length - (i + size)) (by omega) (done.block inside) _ rfl
        exact Nat.dvd_add aligned (Nat.dvd_refl size)
      next => exact ⟨done, aligned⟩

end Talaris.Basis
