import Talaris.Text

/-!
# RFC 6455 frame headers

`parseHeader` reads a header of 2 to 14 bytes from the front of a buffer and
answers `none` while bytes are missing; `encodeHeader` writes one.  The streaming
layers above rely on two facts proved here: a verdict, good or bad, does not change
when more bytes arrive, and byte 1 alone decides how long a header is.
-/

namespace Talaris.Ws

/-- Longest header: 64-bit length and mask key. -/
def maxHeaderLen : Nat := 14

/-- Payload limit of a control frame. -/
def maxControlPayload : Nat := 125

inductive OpCode where
  | continuation
  | text
  | binary
  | close
  | ping
  | pong
  deriving DecidableEq, Repr

/-- Errors of the framing layer. -/
inductive FrameError where
  | rsvBitsSet
  | invalidOpCode (value : UInt8)
  | controlFrameFragmented
  | controlFrameTooLarge
  | payloadTooLarge
  | nonMinimalPayloadLength
  | serverSentMaskedFrame
  deriving DecidableEq, Repr

namespace OpCode

def isControl : OpCode → Bool
  | close | ping | pong => true
  | continuation | text | binary => false

def toByte : OpCode → UInt8
  | continuation => 0x0
  | text => 0x1
  | binary => 0x2
  | close => 0x8
  | ping => 0x9
  | pong => 0xA

def tryFrom (value : UInt8) : Except FrameError OpCode :=
  if value == 0x0 then .ok continuation
  else if value == 0x1 then .ok text
  else if value == 0x2 then .ok binary
  else if value == 0x8 then .ok close
  else if value == 0x9 then .ok ping
  else if value == 0xA then .ok pong
  else .error (.invalidOpCode value)

end OpCode

/-- The four bytes of a mask key. -/
structure MaskKey where
  k0 : UInt8
  k1 : UInt8
  k2 : UInt8
  k3 : UInt8
  deriving DecidableEq, Repr

namespace MaskKey

/-- `key[i % 4]` -/
def byte (key : MaskKey) (i : Nat) : UInt8 :=
  match i % 4 with
  | 0 => key.k0
  | 1 => key.k1
  | 2 => key.k2
  | _ => key.k3

def toBytes (key : MaskKey) : Bytes := [key.k0, key.k1, key.k2, key.k3]

/-- The key at the front of a buffer that holds one. -/
def ofBytes : Bytes → MaskKey
  | k0 :: k1 :: k2 :: k3 :: _ => ⟨k0, k1, k2, k3⟩
  | _ => ⟨0, 0, 0, 0⟩

end MaskKey

structure FrameHeader where
  fin : Bool
  opcode : OpCode
  mask : Option MaskKey
  payloadLen : Nat
  deriving DecidableEq, Repr

/-- Unsigned big-endian value of a byte string. -/
def beNat (bytes : Bytes) : Nat := bytes.foldl (fun acc b => acc * 256 + b.toNat) 0

/-- Payload length and size of the length field behind byte 1. -/
def payloadLenField (len7 : UInt8) (rest : Bytes) : Except FrameError (Option (Nat × Nat)) :=
  if len7 ≤ 125 then .ok (some (len7.toNat, 0))
  else if len7 == 126 then
    if rest.length < 2 then .ok none
    else
      let val := beNat (rest.take 2)
      if val < 126 then .error .nonMinimalPayloadLength else .ok (some (val, 2))
  else
    if rest.length < 8 then .ok none
    else
      let val := beNat (rest.take 8)
      -- the most significant of the 64 bits must be clear
      if 2 ^ 63 ≤ val then .error .payloadTooLarge
      else if val ≤ 0xFFFF then .error .nonMinimalPayloadLength
      else .ok (some (val, 8))

/-- The mask key takes four bytes when there is one. -/
def maskFieldSize (masked : Bool) : Nat := if masked then 4 else 0

/-- `none` asks for more bytes; otherwise the header and the bytes it takes. -/
def parseHeader (buf : Bytes) : Except FrameError (Option (FrameHeader × Nat)) :=
  match buf with
  | b0 :: b1 :: rest =>
      let fin := b0 &&& 0x80 != 0
      if b0 &&& 0x70 != 0 then .error .rsvBitsSet
      else
        match OpCode.tryFrom (b0 &&& 0x0F) with
        | .error e => .error e
        | .ok opcode =>
            let masked := b1 &&& 0x80 != 0
            match payloadLenField (b1 &&& 0x7F) rest with
            | .error e => .error e
            | .ok none => .ok none
            | .ok (some (payloadLen, lenFieldSize)) =>
                if opcode.isControl && !fin then .error .controlFrameFragmented
                else if opcode.isControl && maxControlPayload < payloadLen then
                  .error .controlFrameTooLarge
                else
                  let headerSize := 2 + lenFieldSize + maskFieldSize masked
                  if rest.length + 2 < headerSize then .ok none
                  else
                    let mask :=
                      if masked then some (MaskKey.ofBytes (rest.drop lenFieldSize)) else none
                    .ok (some (⟨fin, opcode, mask, payloadLen⟩, headerSize))
  | _ => .ok none

/-- Big-endian bytes of a value, most significant first. -/
def toBe (size value : Nat) : Bytes :=
  (List.range size).map fun i => UInt8.ofNat (value / 256 ^ (size - 1 - i))

/-- The bytes `encode_header` writes. -/
def encodeHeader (fin : Bool) (opcode : OpCode) (mask : Option MaskKey) (payloadLen : Nat) :
    Bytes :=
  let b0 := if fin then opcode.toByte ||| 0x80 else opcode.toByte
  let maskedBit : UInt8 := if mask.isSome then 0x80 else 0
  let lenField :=
    if payloadLen ≤ 125 then [maskedBit ||| UInt8.ofNat payloadLen]
    else if payloadLen ≤ 0xFFFF then (maskedBit ||| 126) :: toBe 2 payloadLen
    else (maskedBit ||| 127) :: toBe 8 payloadLen
  let maskField :=
    match mask with
    | some key => key.toBytes
    | none => []
  b0 :: lenField ++ maskField

example : encodeHeader true .binary none 126 = [0x82, 126, 0, 126] := by decide
example : parseHeader [0x82, 126, 0, 126] = .ok (some (⟨true, .binary, none, 126⟩, 4)) := by
  decide

/-- Full header size, read off byte 1. -/
def headerSizeFromByte1 (b1 : UInt8) : Nat :=
  let len7 := b1 &&& 0x7F
  let lenField := if len7 ≤ 125 then 0 else if len7 == 126 then 2 else 8
  let maskField := if b1 &&& 0x80 != 0 then 4 else 0
  2 + lenField + maskField

/-! ## Verdicts are stable -/

theorem headerSizeFromByte1_ge (b1 : UInt8) : 2 ≤ headerSizeFromByte1 b1 := by
  simp only [headerSizeFromByte1]
  omega

/-- Size of the length field that the low seven bits of byte 1 announce. -/
def lenFieldSize (len7 : UInt8) : Nat := if len7 ≤ 125 then 0 else if len7 == 126 then 2 else 8

theorem headerSizeFromByte1_eq (b1 : UInt8) :
    headerSizeFromByte1 b1 =
      2 + lenFieldSize (b1 &&& 0x7F) + maskFieldSize (b1 &&& 0x80 != 0) := rfl

theorem payloadLenField_some_size {len7 : UInt8} {rest : Bytes} {payloadLen size : Nat}
    (parsed : payloadLenField len7 rest = .ok (some (payloadLen, size))) :
    size = lenFieldSize len7 := by
  simp only [payloadLenField, lenFieldSize] at parsed ⊢
  repeat' split at parsed
  all_goals simp_all

theorem payloadLenField_none_length {len7 : UInt8} {rest : Bytes}
    (short : payloadLenField len7 rest = .ok none) : rest.length < lenFieldSize len7 := by
  simp only [payloadLenField, lenFieldSize] at short ⊢
  split at short
  next => cases short
  next large =>
    rw [if_neg large]
    split at short
    next is126 =>
      rw [if_pos is126]
      split at short
      next missing => exact missing
      next => split at short <;> cases short
    next not126 =>
      rw [if_neg not126]
      split at short
      next missing => exact missing
      next =>
        split at short
        next => cases short
        next => split at short <;> cases short

theorem payloadLenField_append {len7 : UInt8} {rest : Bytes}
    (settled : payloadLenField len7 rest ≠ .ok none) (more : Bytes) :
    payloadLenField len7 (rest ++ more) = payloadLenField len7 rest := by
  simp only [payloadLenField] at settled ⊢
  split
  next => rfl
  next large =>
    simp only [large, if_false] at settled
    split
    next is126 =>
      simp only [is126, if_true] at settled
      split at settled
      next => exact absurd rfl settled
      next enough =>
        have long : ¬ (rest ++ more).length < 2 := by simp only [List.length_append]; omega
        rw [if_neg long, if_neg enough, List.take_append_of_le_length (by omega)]
    next not126 =>
      simp only [not126, Bool.false_eq_true, if_false] at settled
      split at settled
      next => exact absurd rfl settled
      next enough =>
        have long : ¬ (rest ++ more).length < 8 := by simp only [List.length_append]; omega
        rw [if_neg long, if_neg enough, List.take_append_of_le_length (by omega)]

theorem maskKey_ofBytes_append {bytes : Bytes} (long : 4 ≤ bytes.length) (more : Bytes) :
    MaskKey.ofBytes (bytes ++ more) = MaskKey.ofBytes bytes := by
  match bytes, long with
  | _ :: _ :: _ :: _ :: _, _ => rfl

/-- A header that parsed, or an error, is the same verdict on every extension. -/
theorem parseHeader_append {buf : Bytes} (settled : parseHeader buf ≠ .ok none)
    (more : Bytes) : parseHeader (buf ++ more) = parseHeader buf := by
  match buf with
  | [] => exact absurd rfl settled
  | [_] => exact absurd rfl settled
  | b0 :: b1 :: rest =>
      simp only [parseHeader, List.cons_append] at settled ⊢
      split
      next => rfl
      next rsv =>
        simp only [rsv, Bool.false_eq_true, if_false] at settled
        split
        next => rfl
        next opcode opcodeEq =>
          simp only [opcodeEq] at settled
          have lenSettled : payloadLenField (b1 &&& 0x7F) rest ≠ .ok none := by
            intro short
            simp [short] at settled
          rw [payloadLenField_append lenSettled]
          cases lenEq : payloadLenField (b1 &&& 0x7F) rest with
          | error e => rfl
          | ok len =>
              cases len with
              | none => exact absurd lenEq lenSettled
              | some len =>
                  obtain ⟨payloadLen, size⟩ := len
                  simp only [lenEq] at settled ⊢
                  split
                  next => rfl
                  next fragmented =>
                    simp only [fragmented, Bool.false_eq_true, if_false] at settled
                    split
                    next => rfl
                    next large =>
                      simp only [large, Bool.false_eq_true, if_false] at settled
                      split at settled
                      next => exact absurd rfl settled
                      next enough =>
                        have longer : ¬ (rest ++ more).length + 2 <
                            2 + size + maskFieldSize (b1 &&& 0x80 != 0) := by
                          simp only [List.length_append]
                          omega
                        rw [if_neg longer, if_neg enough]
                        cases masked : b1 &&& 0x80 != 0 with
                        | false => simp
                        | true =>
                            simp only [masked, maskFieldSize, if_true] at enough
                            have keyBytes : 4 ≤ (rest.drop size).length := by
                              simp only [List.length_drop]
                              omega
                            simp only [if_true]
                            rw [List.drop_append_of_le_length (by omega),
                              maskKey_ofBytes_append keyBytes]

/-- Byte 1 decides the size of a header that parsed. -/
theorem parseHeader_some_size {b0 b1 : UInt8} {rest : Bytes} {header : FrameHeader} {size : Nat}
    (parsed : parseHeader (b0 :: b1 :: rest) = .ok (some (header, size))) :
    size = headerSizeFromByte1 b1 ∧ size ≤ rest.length + 2 ∧
      header.fin = (b0 &&& 0x80 != 0) ∧ OpCode.tryFrom (b0 &&& 0x0F) = .ok header.opcode ∧
      (header.mask.isSome = (b1 &&& 0x80 != 0)) ∧ b0 &&& 0x70 = 0 ∧
      payloadLenField (b1 &&& 0x7F) rest =
        .ok (some (header.payloadLen, lenFieldSize (b1 &&& 0x7F))) := by
  simp only [parseHeader] at parsed
  split at parsed
  next => cases parsed
  next rsv =>
    split at parsed
    next => cases parsed
    next opcode opcodeEq =>
      split at parsed
      next => cases parsed
      next => cases parsed
      next payloadLen lenSize lenEq =>
        split at parsed
        next => cases parsed
        split at parsed
        next => cases parsed
        split at parsed
        next => cases parsed
        next enough =>
          have sizeEq := payloadLenField_some_size lenEq
          simp only [Except.ok.injEq, Option.some.injEq, Prod.mk.injEq] at parsed
          obtain ⟨rfl, rfl⟩ := parsed
          subst sizeEq
          refine ⟨(headerSizeFromByte1_eq b1).symm ▸ rfl, by omega, rfl, opcodeEq, ?_, ?_, lenEq⟩
          · cases masked : b1 &&& 0x80 != 0 <;> simp
          · simpa using rsv

theorem beNat_take_two_lt (rest : Bytes) : beNat (rest.take 2) < 2 ^ 16 := by
  match rest with
  | [] => decide
  | [b0] =>
      have := b0.toNat_lt
      simp only [beNat, List.take, List.foldl]
      omega
  | b0 :: b1 :: _ =>
      have := b0.toNat_lt
      have := b1.toNat_lt
      simp only [beNat, List.take, List.foldl]
      omega

/-- Payload lengths fit in 63 bits. -/
theorem parseHeader_payloadLen_lt {buf : Bytes} {header : FrameHeader} {size : Nat}
    (parsed : parseHeader buf = .ok (some (header, size))) : header.payloadLen < 2 ^ 63 := by
  match buf with
  | [] => cases parsed
  | [_] => cases parsed
  | b0 :: b1 :: rest =>
      obtain ⟨-, -, -, -, -, -, len⟩ := parseHeader_some_size parsed
      have short := beNat_take_two_lt rest
      have byte := (b1 &&& 0x7F).toNat_lt
      simp only [payloadLenField] at len
      repeat' split at len
      all_goals
        simp only [Except.ok.injEq, Option.some.injEq, Prod.mk.injEq, reduceCtorEq] at len
      all_goals omega

/-- While a header is undecided, bytes announced by byte 1 are missing. -/
theorem parseHeader_none_length {b0 b1 : UInt8} {rest : Bytes}
    (short : parseHeader (b0 :: b1 :: rest) = .ok none) :
    rest.length + 2 < headerSizeFromByte1 b1 := by
  rw [headerSizeFromByte1_eq]
  simp only [parseHeader] at short
  repeat' split at short
  all_goals try cases short
  next lenEq =>
    have := payloadLenField_none_length lenEq
    omega
  next lenEq _ _ missing =>
    rw [← payloadLenField_some_size lenEq]
    exact missing

end Talaris.Ws
