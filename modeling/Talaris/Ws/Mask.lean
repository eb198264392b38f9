import Talaris.Basis.InPlace
import Talaris.Basis.Words
import Talaris.Ws.Client

/-!
# Masking

A payload is masked in place, byte `i` with byte `i % 4` of the key.  The portable function takes
eight bytes at a time, the AVX2 function thirty-two as eight lanes of four; both finish byte by
byte, each with a counter of its own for the key.  Which one runs is decided on the first call.
-/

namespace Talaris.Ws

open Talaris.Basis

/-- What masking does to the byte at a position. -/
def maskByte (key : MaskKey) (i : Nat) (b : UInt8) : UInt8 := b ^^^ key.byte i

theorem maskInplace_eq (payload : Bytes) (key : MaskKey) :
    maskInplace payload key = payload.mapIdx (maskByte key) := rfl

/-- Masking is its own inverse. -/
theorem maskInplace_maskInplace (payload : Bytes) (key : MaskKey) :
    maskInplace (maskInplace payload key) key = payload := by
  apply List.ext_getElem
  · simp [maskInplace]
  · intro i _ _
    simp [maskInplace]

namespace MaskKey

theorem byte_mod (key : MaskKey) (i : Nat) : key.byte (i % 4) = key.byte i := by
  rw [byte, byte, Nat.mod_mod]

/-- Whole turns of the key do not matter. -/
theorem byte_add (key : MaskKey) {i : Nat} (turns : 4 ∣ i) (j : Nat) :
    key.byte (i + j) = key.byte j := by
  rw [← byte_mod, Nat.add_mod, Nat.mod_eq_zero_of_dvd turns, Nat.zero_add, Nat.mod_mod, byte_mod]

theorem getElem?_toBytes (key : MaskKey) {j : Nat} (within : j < 4) :
    key.toBytes[j]? = some (key.byte j) := by
  match j, within with
  | 0, _ => rfl
  | 1, _ => rfl
  | 2, _ => rfl
  | 3, _ => rfl

end MaskKey

theorem maskByte_add (key : MaskKey) {i : Nat} (turns : 4 ∣ i) (j : Nat) :
    maskByte key (i + j) = maskByte key j := by
  funext b
  rw [maskByte, maskByte, key.byte_add turns]

namespace Mask

/-! ## Eight bytes at a time -/

/-- The key twice over. -/
def key8 (key : MaskKey) : Bytes := key.toBytes ++ key.toBytes

/-- A block read as `u64`, combined with the key and written back. -/
def xorU64 (endian : Endian) (key64 : Word 8) (block : Bytes) : Bytes :=
  endian.toBytes (endian.fromBytes 8 block ^^^ key64)

/-- The last bytes; `k` runs through the key. -/
def scalarTail (key : MaskKey) (len : Nat) (buf : Bytes) (i k : Nat) : Bytes :=
  if i < len then scalarTail key len (buf.modify i (· ^^^ key.byte k)) (i + 1) ((k + 1) &&& 3)
  else buf
  termination_by len - i

def maskScalar (endian : Endian) (buf : Bytes) (key : MaskKey) : Bytes :=
  let key64 := endian.fromBytes 8 (key8 key)
  let (masked, i) := blockLoop 8 (xorU64 endian key64) buf.length buf 0
  scalarTail key buf.length masked i 0

/-! ## Thirty-two bytes at a time -/

/-- `__m256i` as eight lanes of 32 bits. -/
structure M256i where
  lane : Fin 8 → Word 4

/-- `_mm256_set1_epi32` -/
def mm256Set1Epi32 (value : Word 4) : M256i := ⟨fun _ => value⟩

/-- `_mm256_loadu_si256` -/
def mm256LoaduSi256 (endian : Endian) (block : Bytes) : M256i :=
  ⟨fun lane => endian.fromBytes 4 (slice block (4 * lane) 4)⟩

/-- `_mm256_xor_si256` -/
def mm256XorSi256 (a b : M256i) : M256i := ⟨fun lane => a.lane lane ^^^ b.lane lane⟩

/-- `_mm256_storeu_si256` -/
def mm256StoreuSi256 (endian : Endian) (value : M256i) : Bytes :=
  (List.ofFn fun lane => endian.toBytes (value.lane lane)).flatten

/-- A block loaded, combined with the key and stored. -/
def xorM256 (endian : Endian) (keyVec : M256i) (block : Bytes) : Bytes :=
  mm256StoreuSi256 endian (mm256XorSi256 (mm256LoaduSi256 endian block) keyVec)

/-- The last bytes; the position itself finds the byte of the key. -/
def avx2Tail (key : MaskKey) (len : Nat) (buf : Bytes) (i : Nat) : Bytes :=
  if i < len then avx2Tail key len (buf.modify i (· ^^^ key.byte (i &&& 3))) (i + 1) else buf
  termination_by len - i

def maskAvx2 (endian : Endian) (buf : Bytes) (key : MaskKey) : Bytes :=
  let key32 := endian.fromBytes 4 key.toBytes
  let keyVec := mm256Set1Epi32 key32
  let (masked, i) := blockLoop 32 (xorM256 endian keyVec) buf.length buf 0
  avx2Tail key buf.length masked i

/-! ## The choice of the function -/

inductive MaskFn where
  | maskScalar
  | maskAvx2Wrapper
  deriving DecidableEq, Repr

/-- What the program runs on. -/
structure Cpu where
  endian : Endian
  x86_64 : Bool
  avx2 : Bool
  deriving DecidableEq, Repr

def selectImpl (cpu : Cpu) : MaskFn :=
  if cpu.x86_64 && cpu.avx2 then .maskAvx2Wrapper else .maskScalar

def MaskFn.call (f : MaskFn) (cpu : Cpu) (buf : Bytes) (key : MaskKey) : Bytes :=
  match f with
  | .maskScalar => Mask.maskScalar cpu.endian buf key
  | .maskAvx2Wrapper => maskAvx2 cpu.endian buf key

/-- `mask_inplace`; the cell keeps the function that the first call chose. -/
def inplace (cpu : Cpu) (cell : Option MaskFn) (buf : Bytes) (key : MaskKey) :
    Bytes × Option MaskFn :=
  let f := cell.getD (selectImpl cpu)
  (f.call cpu buf key, some f)

/-! ## Blocks -/

variable (endian : Endian) (key : MaskKey)

theorem getElem?_key8 {j : Nat} (within : j < 8) : (key8 key)[j]? = some (key.byte j) := by
  by_cases first : j < 4
  · rw [key8, List.getElem?_append_left (by exact first), key.getElem?_toBytes first]
  · have second : 4 ≤ j := Nat.le_of_not_lt first
    have place : 4 + (j - 4) = j := by omega
    rw [key8, List.getElem?_append_right (by exact second)]
    show key.toBytes[j - 4]? = _
    rw [key.getElem?_toBytes (by omega), ← key.byte_add (Nat.dvd_refl 4) (j - 4), place]

theorem xorU64_blockwise :
    Blockwise 8 (maskByte key) (xorU64 endian (endian.fromBytes 8 (key8 key))) := by
  intro i aligned block sized
  have turns : 4 ∣ i := Nat.dvd_trans (by decide) aligned
  rw [xorU64, endian.toBytes_xor sized rfl]
  rw [zipWith_eq_mapIdx _ fun j inside => getElem?_key8 key (by omega)]
  simp only [maskByte_add key turns]
  rfl

theorem xorM256_blockwise :
    Blockwise 32 (maskByte key)
      (xorM256 endian (mm256Set1Epi32 (endian.fromBytes 4 key.toBytes))) := by
  intro i aligned block sized
  have turns : 4 ∣ i := Nat.dvd_trans (by decide) aligned
  have lanes (lane : Fin 8) :
      endian.toBytes (endian.fromBytes 4 (slice block (4 * lane) 4) ^^^
          endian.fromBytes 4 key.toBytes) =
        (slice block (4 * lane) 4).mapIdx fun j => maskByte key (4 * lane + j) := by
    have inside : 4 * lane.val + 4 ≤ block.length := by omega
    have length := slice_length inside
    rw [endian.toBytes_xor length rfl]
    rw [zipWith_eq_mapIdx _ fun j within => key.getElem?_toBytes (by omega)]
    simp only [maskByte_add key (Nat.dvd_mul_right 4 lane)]
    rfl
  have whole := flatten_lanes 4 8 (maskByte key) sized
  simp only [xorM256, mm256StoreuSi256, mm256XorSi256, mm256LoaduSi256, mm256Set1Epi32, lanes]
  rw [whole]
  simp only [maskByte_add key turns]

/-! ## The last bytes -/

theorem scalarTail_eq {orig buf : Bytes} {i k : Nat} (done : DoneTo (maskByte key) orig i buf)
    (phase : k = i % 4) : scalarTail key orig.length buf i k = maskInplace orig key := by
  induction rest : orig.length - i using Nat.strong_induction_on generalizing buf i k with
  | _ rest ih =>
      subst rest
      rw [scalarTail]
      split
      next inside =>
        have same : (fun b => b ^^^ key.byte k) = maskByte key i := by
          funext b
          rw [maskByte, phase, key.byte_mod]
        have next : (k + 1) &&& 3 = (i + 1) % 4 := by
          rw [phase, Nat.and_two_pow_sub_one_eq_mod _ 2]
          omega
        rw [same]
        exact ih (orig.length - (i + 1)) (by omega) done.element next rfl
      next past =>
        rw [maskInplace_eq]
        exact done.finish (by omega)

theorem avx2Tail_eq {orig buf : Bytes} {i : Nat} (done : DoneTo (maskByte key) orig i buf) :
    avx2Tail key orig.length buf i = maskInplace orig key := by
  induction rest : orig.length - i using Nat.strong_induction_on generalizing buf i with
  | _ rest ih =>
      subst rest
      rw [avx2Tail]
      split
      next inside =>
        have same : (fun b => b ^^^ key.byte (i &&& 3)) = maskByte key i := by
          funext b
          rw [maskByte, Nat.and_two_pow_sub_one_eq_mod _ 2]
          show b ^^^ key.byte (i % 4) = _
          rw [key.byte_mod]
        rw [same]
        exact ih (orig.length - (i + 1)) (by omega) done.element rfl
      next past =>
        rw [maskInplace_eq]
        exact done.finish (by omega)

/-! ## All functions do the same -/

theorem maskScalar_eq (buf : Bytes) : maskScalar endian buf key = maskInplace buf key := by
  obtain ⟨done, aligned⟩ :=
    blockLoop_done (xorU64_blockwise endian key) (DoneTo.start _ buf) (Nat.dvd_zero 8)
  have turns := Nat.dvd_trans (by decide : 4 ∣ 8) aligned
  exact scalarTail_eq key done (Nat.mod_eq_zero_of_dvd turns).symm

theorem maskAvx2_eq (buf : Bytes) : maskAvx2 endian buf key = maskInplace buf key := by
  obtain ⟨done, -⟩ :=
    blockLoop_done (xorM256_blockwise endian key) (DoneTo.start _ buf) (Nat.dvd_zero 32)
  exact avx2Tail_eq key done

/-- Whatever the first call chose, every call masks as the frames of the client are masked. -/
theorem inplace_eq (cpu : Cpu) (cell : Option MaskFn) (buf : Bytes) :
    (inplace cpu cell buf key).1 = maskInplace buf key := by
  unfold inplace
  cases cell.getD (selectImpl cpu) with
  | maskScalar => exact maskScalar_eq cpu.endian key buf
  | maskAvx2Wrapper => exact maskAvx2_eq cpu.endian key buf

/-- Both loops replace byte `i` by its exclusive or with byte `i % 4` of the key, for any buffer,
key and byte order; masking twice restores the buffer. -/
theorem masks_bytewise (buf : Bytes) (key : MaskKey) :
    (∀ endian, maskScalar endian buf key = buf.mapIdx fun i b => b ^^^ key.byte (i % 4)) ∧
    (∀ endian, maskAvx2 endian buf key = buf.mapIdx fun i b => b ^^^ key.byte (i % 4)) ∧
    (∀ endian endian', maskAvx2 endian buf key = maskScalar endian' buf key) ∧
    ∀ cpu cell,
      let once := inplace cpu cell buf key
      (inplace cpu once.2 once.1 key).1 = buf := by
  have spec : maskInplace buf key = buf.mapIdx fun i b => b ^^^ key.byte (i % 4) := by
    simp only [maskInplace, key.byte_mod]
  refine ⟨?_, ?_, ?_, ?_⟩
  · intro endian
    rw [maskScalar_eq, spec]
  · intro endian
    rw [maskAvx2_eq, spec]
  · intro endian endian'
    rw [maskAvx2_eq, maskScalar_eq]
  · intro cpu cell
    dsimp only
    rw [inplace_eq, inplace_eq, maskInplace_maskInplace]

end Mask

end Talaris.Ws
