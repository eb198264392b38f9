import Talaris.Basis.Transition
import Talaris.Text

/-!
# The receive buffer

`CursorBuf` is a vector with a cursor: consuming moves the cursor, and the bytes before it are
given up when the vector would have to grow otherwise.  How a vector grows is left open.  Seen
from outside the buffer is a queue of bytes, appended to at the back and dropped from the front.
-/

namespace Talaris

open Talaris.Basis

/-! ## Vectors -/

/-- The capacities that a vector takes: at least what was asked for. -/
structure VecGrowth where
  withCapacity : Nat → Nat
  reserve : (capacity needed : Nat) → Nat
  withCapacity_le : ∀ cap, cap ≤ withCapacity cap
  reserve_le : ∀ capacity needed, needed ≤ reserve capacity needed

/-- Twice the capacity, or what is needed. -/
def VecGrowth.doubling : VecGrowth where
  withCapacity cap := cap
  reserve capacity needed := max (2 * capacity) needed
  withCapacity_le cap := Nat.le_refl cap
  reserve_le _ needed := Nat.le_max_right _ needed

/-- `Vec<u8>` -/
structure ByteVec where
  bytes : Bytes
  capacity : Nat
  fits : bytes.length ≤ capacity

namespace ByteVec

def len (vec : ByteVec) : Nat := vec.bytes.length

def withCapacity (growth : VecGrowth) (cap : Nat) : ByteVec :=
  ⟨[], growth.withCapacity cap, Nat.zero_le _⟩

/-- The vector moves to a larger allocation when its own is too small. -/
def extendFromSlice (growth : VecGrowth) (vec : ByteVec) (bytes : Bytes) : ByteVec :=
  let needed := (vec.bytes ++ bytes).length
  if room : needed ≤ vec.capacity then ⟨vec.bytes ++ bytes, vec.capacity, room⟩
  else ⟨vec.bytes ++ bytes, growth.reserve vec.capacity needed, growth.reserve_le _ _⟩

def clear (vec : ByteVec) : ByteVec := ⟨[], vec.capacity, Nat.zero_le _⟩

/-- `drain(..n)` -/
def drainFront (vec : ByteVec) (n : Nat) : ByteVec :=
  ⟨vec.bytes.drop n, vec.capacity, by
    have fits := vec.fits
    rw [List.length_drop]
    omega⟩

@[simp] theorem bytes_extendFromSlice (growth : VecGrowth) (vec : ByteVec) (bytes : Bytes) :
    (vec.extendFromSlice growth bytes).bytes = vec.bytes ++ bytes := by
  rw [extendFromSlice]
  split <;> rfl

end ByteVec

/-! ## The buffer -/

structure CursorBuf where
  data : ByteVec
  head : Nat

namespace CursorBuf

def withCapacity (growth : VecGrowth) (cap : Nat) : CursorBuf :=
  ⟨ByteVec.withCapacity growth cap, 0⟩

def len (buf : CursorBuf) : Nat := buf.data.len - buf.head

def isEmpty (buf : CursorBuf) : Bool := buf.head == buf.data.len

/-- `&data[head..]` -/
def asSlice (buf : CursorBuf) : Bytes := buf.data.bytes.drop buf.head

/-- The unread bytes move to the front. -/
def compact (buf : CursorBuf) : CursorBuf :=
  if buf.head = 0 then buf else ⟨buf.data.drainFront buf.head, 0⟩

def extendFromSlice (growth : VecGrowth) (buf : CursorBuf) (bytes : Bytes) : CursorBuf :=
  if bytes.isEmpty then buf
  else
    let need := buf.data.len + bytes.length
    let buf := if buf.data.capacity < need ∧ 0 < buf.head then buf.compact else buf
    { buf with data := buf.data.extendFromSlice growth bytes }

/-- More than `len` is a failed assertion of the source. -/
def consume (buf : CursorBuf) (n : Nat) : CursorBuf :=
  let head := buf.head + n
  if head = buf.data.len then ⟨buf.data.clear, 0⟩ else { buf with head }

def clear (buf : CursorBuf) : CursorBuf := ⟨buf.data.clear, 0⟩

/-! ## What each operation does -/

/-- The cursor is inside the vector. -/
def Inside (buf : CursorBuf) : Prop := buf.head ≤ buf.data.len

theorem len_eq (buf : CursorBuf) : buf.len = buf.asSlice.length := by
  rw [len, asSlice, List.length_drop, ByteVec.len]

theorem isEmpty_iff {buf : CursorBuf} (inside : buf.Inside) :
    buf.isEmpty = true ↔ buf.asSlice = [] := by
  rw [isEmpty, beq_iff_eq, ← List.length_eq_zero_iff, ← len_eq, len]
  unfold Inside at inside
  omega

theorem withCapacity_inside (growth : VecGrowth) (cap : Nat) :
    (withCapacity growth cap).Inside := Nat.le_refl 0

theorem asSlice_withCapacity (growth : VecGrowth) (cap : Nat) :
    (withCapacity growth cap).asSlice = [] := rfl

theorem compact_spec {buf : CursorBuf} (inside : buf.Inside) :
    buf.compact.Inside ∧ buf.compact.asSlice = buf.asSlice := by
  rw [compact]
  split
  next => exact ⟨inside, rfl⟩
  next => exact ⟨Nat.zero_le _, rfl⟩

theorem extendFromSlice_spec (growth : VecGrowth) {buf : CursorBuf} (inside : buf.Inside)
    (bytes : Bytes) :
    (buf.extendFromSlice growth bytes).Inside ∧
      (buf.extendFromSlice growth bytes).asSlice = buf.asSlice ++ bytes := by
  -- appending behind a cursor that is inside leaves the cursor inside
  have append (other : CursorBuf) (within : other.Inside) :
      ({ other with data := other.data.extendFromSlice growth bytes } : CursorBuf).Inside ∧
        ({ other with data := other.data.extendFromSlice growth bytes } : CursorBuf).asSlice =
          other.asSlice ++ bytes := by
    have before : other.head ≤ other.data.bytes.length := within
    constructor
    · rw [Inside, ByteVec.len, ByteVec.bytes_extendFromSlice, List.length_append]
      exact Nat.le_add_right_of_le before
    · rw [asSlice, ByteVec.bytes_extendFromSlice, List.drop_append_of_le_length before]
      rfl
  rw [extendFromSlice]
  split
  next empty =>
    rw [List.isEmpty_iff] at empty
    rw [empty, List.append_nil]
    exact ⟨inside, rfl⟩
  next =>
    dsimp only
    split
    next =>
      obtain ⟨within, same⟩ := compact_spec inside
      rw [← same]
      exact append buf.compact within
    next => exact append buf inside

theorem consume_spec {buf : CursorBuf} (inside : buf.Inside) {n : Nat} (within : n ≤ buf.len) :
    (buf.consume n).Inside ∧ (buf.consume n).asSlice = buf.asSlice.drop n := by
  unfold Inside at inside
  rw [len] at within
  rw [consume]
  split
  next all =>
    have empty : buf.asSlice.drop n = [] := by
      rw [asSlice, List.drop_drop, List.drop_eq_nil_iff, all]
      exact Nat.le_refl _
    rw [empty]
    exact ⟨Nat.le_refl 0, rfl⟩
  next =>
    constructor
    · show buf.head + n ≤ buf.data.len
      omega
    · rw [asSlice, asSlice, List.drop_drop]

theorem clear_spec (buf : CursorBuf) : buf.clear.Inside ∧ buf.clear.asSlice = [] :=
  ⟨Nat.le_refl 0, rfl⟩

end CursorBuf

/-! ## A queue of bytes -/

/-- An operation on the buffer. -/
inductive BufOp where
  | extendFromSlice (bytes : Bytes)
  | consume (n : Nat)
  | clear
  deriving DecidableEq, Repr

/-- What the buffer is for: bytes go in at the back and out at the front. -/
def BufOp.onQueue (queue : Bytes) : BufOp → Bytes
  | extendFromSlice bytes => queue ++ bytes
  | consume n => queue.drop n
  | clear => []

def BufOp.onBuf (growth : VecGrowth) (buf : CursorBuf) : BufOp → CursorBuf
  | extendFromSlice bytes => buf.extendFromSlice growth bytes
  | consume n => buf.consume n
  | clear => buf.clear

/-- No more is consumed than there is. -/
def BufOp.Allowed (buf : CursorBuf) : BufOp → Prop
  | consume n => n ≤ buf.len
  | extendFromSlice _ | clear => True

instance (buf : CursorBuf) (op : BufOp) : Decidable (op.Allowed buf) :=
  match op with
  | .consume n => inferInstanceAs (Decidable (n ≤ buf.len))
  | .extendFromSlice _ | .clear => .isTrue trivial

/-- The queue, seen after each operation. -/
def queueMachine : Machine Bytes BufOp Bytes where
  initial queue := queue = []
  step queue op := (op.onQueue queue, op.onQueue queue)

/-- The buffer, seen after each operation through `as_slice`. -/
def cursorMachine (growth : VecGrowth) (cap : Nat) : Machine CursorBuf BufOp Bytes where
  initial buf := buf = CursorBuf.withCapacity growth cap
  step buf op := (op.onBuf growth buf, (op.onBuf growth buf).asSlice)

namespace CursorBuf

/-- The buffer holds this queue. -/
structure Holds (buf : CursorBuf) (queue : Bytes) : Prop where
  inside : buf.Inside
  slice : buf.asSlice = queue

theorem onBuf_holds (growth : VecGrowth) {buf : CursorBuf} {queue : Bytes}
    (holds : buf.Holds queue) {op : BufOp} (allowed : op.Allowed buf) :
    (op.onBuf growth buf).Holds (op.onQueue queue) := by
  obtain ⟨inside, rfl⟩ := holds
  cases op with
  | extendFromSlice bytes =>
      obtain ⟨within, slice⟩ := extendFromSlice_spec growth inside bytes
      exact ⟨within, slice⟩
  | consume n =>
      obtain ⟨within, slice⟩ := consume_spec inside allowed
      exact ⟨within, slice⟩
  | clear =>
      obtain ⟨within, slice⟩ := clear_spec buf
      exact ⟨within, slice⟩

theorem refines_queue (growth : VecGrowth) (cap : Nat) :
    (cursorMachine growth cap).Refines queueMachine (fun buf op => op.Allowed buf) Holds where
  step op holds allowed := by
    have kept := onBuf_holds growth holds allowed
    exact ⟨kept, kept.slice⟩

/-- `&as_slice()[start..stop]` -/
def range (buf : CursorBuf) (start stop : Nat) : Bytes := (buf.asSlice.take stop).drop start

/-- An offset into the slice finds the same bytes after more of them came in. -/
theorem range_extendFromSlice (growth : VecGrowth) {buf : CursorBuf} (inside : buf.Inside)
    (bytes : Bytes) {stop : Nat} (within : stop ≤ buf.len) (start : Nat) :
    (buf.extendFromSlice growth bytes).range start stop = buf.range start stop := by
  rw [len_eq] at within
  rw [range, range, (extendFromSlice_spec growth inside bytes).2,
    List.take_append_of_le_length within]

/-- In every run the buffer shows what a queue of bytes would, its cursor is inside the vector,
and ranges of the slice survive an `extend_from_slice`. -/
theorem run_is_queue (growth : VecGrowth) (cap : Nat) (ops : List BufOp)
    (allowed : (cursorMachine growth cap).Admitted (fun buf op => op.Allowed buf)
      (withCapacity growth cap) ops) :
    let run := (cursorMachine growth cap).run (withCapacity growth cap) ops
    let queue := queueMachine.run [] ops
    run.1.asSlice = queue.1 ∧ run.2 = queue.2 ∧ run.1.head ≤ run.1.data.len ∧
      ∀ bytes start stop, stop ≤ run.1.len →
        (run.1.extendFromSlice growth bytes).range start stop = run.1.range start stop := by
  have fresh : (withCapacity growth cap).Holds [] :=
    ⟨withCapacity_inside growth cap, asSlice_withCapacity growth cap⟩
  obtain ⟨⟨inside, slice⟩, seen⟩ := (refines_queue growth cap).run fresh ops allowed
  refine ⟨slice, seen, inside, ?_⟩
  intro bytes start stop within
  exact range_extendFromSlice growth inside bytes within start

/-- Nine bytes in a buffer for eight: the last of them come in after a move to the front, and one
that was read before is still at its offset. -/
theorem run_is_queue_compacts :
    let ops := [.extendFromSlice [1, 2, 3, 4, 5, 6], .consume 3, .extendFromSlice [7]]
    let buf := ((cursorMachine .doubling 8).run (withCapacity .doubling 8) ops).1
    buf.asSlice = [4, 5, 6, 7] ∧ buf.head = 3 ∧
      (buf.extendFromSlice .doubling [8, 9]).head = 0 ∧
      (buf.extendFromSlice .doubling [8, 9]).range 1 3 = [5, 6] := by
  intro ops buf
  obtain ⟨slice, -, -, survives⟩ := run_is_queue .doubling 8 ops (by decide)
  refine ⟨slice.trans (by decide), by decide, by decide, ?_⟩
  exact (survives [8, 9] 1 3 (by decide)).trans (by decide)

end CursorBuf

end Talaris
