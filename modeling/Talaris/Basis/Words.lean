import Mathlib

/-!
# Words of bytes

A machine reads `size` consecutive bytes as one word, in one of two byte orders, and writes a
word back the same way.  Whatever the order, an operation that treats every bit of a word on its
own treats every byte on its own; this is stated for `^^^`.
-/

namespace Talaris.Basis

/-! ## Numbers of bytes -/

/-- The number whose digits to the base 256 these are, the least significant first. -/
def leValue (bytes : List UInt8) : Nat := Nat.ofDigits 256 (bytes.map UInt8.toNat)

/-- The first `size` digits of a number to the base 256. -/
def leBytes : (size : Nat) → Nat → List UInt8
  | 0, _ => []
  | size + 1, value => UInt8.ofNat value :: leBytes size (value / 256)

@[simp] theorem leValue_nil : leValue [] = 0 := rfl

theorem leValue_cons (byte : UInt8) (bytes : List UInt8) :
    leValue (byte :: bytes) = byte.toNat + 256 * leValue bytes := by
  simp [leValue, Nat.ofDigits_cons]

theorem leValue_lt (bytes : List UInt8) : leValue bytes < 2 ^ (8 * bytes.length) := by
  have digits : ∀ digit ∈ bytes.map UInt8.toNat, digit < 256 := by
    intro digit member
    obtain ⟨byte, -, rfl⟩ := List.mem_map.mp member
    exact byte.toNat_lt
  have bound := Nat.ofDigits_lt_base_pow_length (by decide) digits
  rw [List.length_map] at bound
  calc leValue bytes < 256 ^ bytes.length := bound
    _ = 2 ^ (8 * bytes.length) := by rw [Nat.pow_mul]

@[simp] theorem leBytes_length (size value : Nat) : (leBytes size value).length = size := by
  induction size generalizing value with
  | zero => rfl
  | succ size ih => simp [leBytes, ih]

/-- The bytes of a number that was read from bytes. -/
theorem leBytes_leValue (bytes : List UInt8) :
    leBytes bytes.length (leValue bytes) = bytes := by
  induction bytes with
  | nil => rfl
  | cons byte bytes ih =>
      have small := byte.toNat_lt
      have upper : leValue (byte :: bytes) / 256 = leValue bytes := by
        rw [leValue_cons]
        omega
      have lower : UInt8.ofNat (leValue (byte :: bytes)) = byte := by
        apply UInt8.toNat_inj.mp
        rw [UInt8.toNat_ofNat', leValue_cons]
        omega
      rw [List.length_cons, leBytes, upper, lower, ih]

/-- Numbers are combined digit by digit. -/
theorem leValue_zipWith_xor {xs ys : List UInt8} (same : xs.length = ys.length) :
    leValue (List.zipWith (· ^^^ ·) xs ys) = leValue xs ^^^ leValue ys := by
  induction xs generalizing ys with
  | nil =>
      have empty : ys = [] := List.eq_nil_of_length_eq_zero same.symm
      simp [empty]
  | cons x xs ih =>
      cases ys with
      | nil => simp at same
      | cons y ys =>
          have tail := ih (Nat.succ.inj same)
          rw [List.zipWith_cons_cons, leValue_cons, leValue_cons, leValue_cons, tail,
            UInt8.toNat_xor]
          have left : x.toNat < 2 ^ 8 := x.toNat_lt
          have right : y.toNat < 2 ^ 8 := y.toNat_lt
          have both : x.toNat ^^^ y.toNat < 2 ^ 8 := Nat.xor_lt_two_pow left right
          apply Nat.eq_of_testBit_eq
          intro bit
          rw [Nat.testBit_xor, Nat.add_comm _ (256 * _), Nat.add_comm _ (256 * _),
            Nat.add_comm _ (256 * _), Nat.testBit_two_pow_mul_add _ both,
            Nat.testBit_two_pow_mul_add _ left, Nat.testBit_two_pow_mul_add _ right]
          split <;> rw [Nat.testBit_xor]

/-! ## Byte orders -/

/-- The order in which a machine keeps the bytes of a word. -/
inductive Endian where
  | little
  | big
  deriving DecidableEq, Repr

/-- A word of `size` bytes. -/
abbrev Word (size : Nat) := BitVec (8 * size)

namespace Endian

/-- Between the order in memory and the order of significance, in both directions. -/
def arrange (endian : Endian) (bytes : List UInt8) : List UInt8 :=
  match endian with
  | little => bytes
  | big => bytes.reverse

/-- The word that a machine reads from bytes. -/
def fromBytes (endian : Endian) (size : Nat) (bytes : List UInt8) : Word size :=
  BitVec.ofNat (8 * size) (leValue (endian.arrange bytes))

/-- The bytes that a machine writes for a word. -/
def toBytes (endian : Endian) {size : Nat} (word : Word size) : List UInt8 :=
  endian.arrange (leBytes size word.toNat)

variable (endian : Endian)

@[simp] theorem arrange_length (bytes : List UInt8) :
    (endian.arrange bytes).length = bytes.length := by
  cases endian <;> simp [arrange]

@[simp] theorem arrange_arrange (bytes : List UInt8) :
    endian.arrange (endian.arrange bytes) = bytes := by
  cases endian <;> simp [arrange]

theorem arrange_zipWith {xs ys : List UInt8} (same : xs.length = ys.length)
    (f : UInt8 → UInt8 → UInt8) :
    List.zipWith f (endian.arrange xs) (endian.arrange ys) =
      endian.arrange (List.zipWith f xs ys) := by
  cases endian with
  | little => rfl
  | big => exact (List.reverse_zipWith same).symm

@[simp] theorem toBytes_length {size : Nat} (word : Word size) :
    (endian.toBytes word).length = size := by
  simp [toBytes]

theorem toNat_fromBytes {size : Nat} {bytes : List UInt8} (sized : bytes.length = size) :
    (endian.fromBytes size bytes).toNat = leValue (endian.arrange bytes) := by
  have bound := leValue_lt (endian.arrange bytes)
  rw [arrange_length, sized] at bound
  exact Nat.mod_eq_of_lt bound

/-- What was read is written back as it was. -/
theorem toBytes_fromBytes {size : Nat} {bytes : List UInt8} (sized : bytes.length = size) :
    endian.toBytes (endian.fromBytes size bytes) = bytes := by
  have length : (endian.arrange bytes).length = size := by rw [arrange_length, sized]
  rw [toBytes, endian.toNat_fromBytes sized, ← length, leBytes_leValue, arrange_arrange]

/-- Words are combined byte by byte, in either order. -/
theorem toBytes_xor {size : Nat} {xs ys : List UInt8} (left : xs.length = size)
    (right : ys.length = size) :
    endian.toBytes (endian.fromBytes size xs ^^^ endian.fromBytes size ys) =
      List.zipWith (· ^^^ ·) xs ys := by
  have same : xs.length = ys.length := left.trans right.symm
  have arranged : (endian.arrange xs).length = (endian.arrange ys).length := by
    rw [arrange_length, arrange_length, same]
  have zipped : (endian.arrange (List.zipWith (· ^^^ ·) xs ys)).length = size := by
    rw [arrange_length, List.length_zipWith, left, right, Nat.min_self]
  have value : (endian.fromBytes size xs ^^^ endian.fromBytes size ys).toNat =
      leValue (endian.arrange (List.zipWith (· ^^^ ·) xs ys)) := by
    rw [BitVec.toNat_xor, endian.toNat_fromBytes left, endian.toNat_fromBytes right,
      ← leValue_zipWith_xor arranged, endian.arrange_zipWith same]
  rw [toBytes, value]
  conv => lhs; rw [← zipped, leBytes_leValue, arrange_arrange]

end Endian

end Talaris.Basis
