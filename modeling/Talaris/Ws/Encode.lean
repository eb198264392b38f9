import Talaris.Ws.Parser

/-!
# Frame headers read back

`parseHeader` inverts `encodeHeader` on every header that RFC 6455 allows
(`parseHeader_encodeHeader`): the three length forms, with and without a mask key.
Conversely it accepts nothing but the bytes `encodeHeader` writes for the header it
returns (`encodeHeader_of_parseHeader`), so each header has one encoding.
-/

namespace Talaris.Ws

/-! ## Big-endian numbers -/

theorem toBe_succ (size value : Nat) :
    toBe (size + 1) value = UInt8.ofNat (value / 256 ^ size) :: toBe size value := by
  rw [toBe, List.range_succ_eq_map, List.map_cons, List.map_map]
  refine congrArg₂ List.cons rfl (List.map_congr_left fun i _ => ?_)
  simp only [Function.comp_apply]
  congr 3
  omega

@[simp] theorem toBe_length (size value : Nat) : (toBe size value).length = size := by
  simp [toBe]

theorem foldl_toBe (size value acc : Nat) :
    (toBe size value).foldl (fun acc b => acc * 256 + b.toNat) acc =
      acc * 256 ^ size + value % 256 ^ size := by
  induction size generalizing acc with
  | zero => simp [toBe, Nat.mod_one]
  | succ size ih =>
      rw [toBe_succ, List.foldl_cons, ih]
      have digit : (UInt8.ofNat (value / 256 ^ size)).toNat = value / 256 ^ size % 256 := by
        simp
      rw [digit, Nat.pow_succ, Nat.mod_mul]
      ring

theorem beNat_toBe {size value : Nat} (fits : value < 256 ^ size) :
    beNat (toBe size value) = value := by
  rw [beNat, foldl_toBe, Nat.mod_eq_of_lt fits]
  omega

theorem beNat_append (bytes more : Bytes) :
    beNat (bytes ++ more) = beNat bytes * 256 ^ more.length + beNat more := by
  induction more using List.reverseRecOn with
  | nil => simp [beNat]
  | append_singleton more b ih =>
      simp only [beNat, ← List.append_assoc, List.foldl_append, List.foldl_cons, List.foldl_nil,
        List.length_append, List.length_singleton, Nat.pow_succ] at ih ⊢
      rw [ih]
      ring

theorem beNat_lt (bytes : Bytes) : beNat bytes < 256 ^ bytes.length := by
  induction bytes using List.reverseRecOn with
  | nil => decide
  | append_singleton bytes b ih =>
      have byte := b.toNat_lt
      have last : beNat [b] = b.toNat := by simp [beNat]
      rw [beNat_append, last, List.length_append, List.length_singleton, Nat.pow_succ]
      omega

/-- Only the low digits count. -/
theorem toBe_mod (size value : Nat) : toBe size (value % 256 ^ size) = toBe size value := by
  induction size generalizing value with
  | zero => rfl
  | succ size ih =>
      have digit : UInt8.ofNat (value % 256 ^ (size + 1) / 256 ^ size) =
          UInt8.ofNat (value / 256 ^ size) := by
        rw [Nat.pow_succ, Nat.mod_mul_right_div_self]
        exact UInt8.ofNat_mod_size ..
      have rest : value % 256 ^ (size + 1) % 256 ^ size = value % 256 ^ size :=
        Nat.mod_mod_of_dvd value (Nat.pow_dvd_pow 256 (Nat.le_succ size))
      rw [toBe_succ, toBe_succ, digit, ← ih (value % 256 ^ (size + 1)), rest, ih]

/-- A number written back in as many bytes as it was read from. -/
theorem toBe_beNat (bytes : Bytes) : toBe bytes.length (beNat bytes) = bytes := by
  induction bytes with
  | nil => rfl
  | cons b bytes ih =>
      have split : beNat (b :: bytes) = b.toNat * 256 ^ bytes.length + beNat bytes := by
        simpa [beNat] using beNat_append [b] bytes
      have small := beNat_lt bytes
      have head : UInt8.ofNat (beNat (b :: bytes) / 256 ^ bytes.length) = b := by
        rw [split, Nat.mul_comm, Nat.mul_add_div (by positivity), Nat.div_eq_of_lt small]
        simp
      have low : beNat (b :: bytes) % 256 ^ bytes.length = beNat bytes := by
        rw [split, Nat.mul_comm, Nat.mul_add_mod, Nat.mod_eq_of_lt small]
      rw [List.length_cons, toBe_succ, head, ← toBe_mod bytes.length, low, ih]

/-! ## The two leading bytes -/

/-- Byte 0 of a header. -/
theorem headerByte0_fields (fin : Bool) (opcode : OpCode) :
    let b0 := if fin then opcode.toByte ||| 0x80 else opcode.toByte
    (b0 &&& 0x80 != 0) = fin ∧ (b0 &&& 0x70 != 0) = false ∧
      OpCode.tryFrom (b0 &&& 0x0F) = .ok opcode := by
  cases fin <;> cases opcode <;> decide

/-- Byte 1 of a header: mask bit and seven bits of length. -/
theorem headerByte1_fields (masked : Bool) {len7 : Nat} (small : len7 < 128) :
    let b1 := (if masked then 0x80 else 0) ||| UInt8.ofNat len7
    (b1 &&& 0x80 != 0) = masked ∧ b1 &&& 0x7F = UInt8.ofNat len7 := by
  have fields : ∀ masked : Bool, ∀ len7 < 128,
      let b1 := (if masked then 0x80 else 0) ||| UInt8.ofNat len7
      (b1 &&& 0x80 != 0) = masked ∧ b1 &&& 0x7F = UInt8.ofNat len7 := by decide +kernel
  exact fields masked len7 small

theorem OpCode.toByte_of_tryFrom {value : UInt8} {opcode : OpCode}
    (named : OpCode.tryFrom value = .ok opcode) : opcode.toByte = value := by
  simp only [OpCode.tryFrom] at named
  repeat' split at named
  all_goals cases named
  all_goals next is => exact (eq_of_beq is).symm

/-- Byte 0 is written back from the fields read off it. -/
theorem headerByte0_back {b0 : UInt8} {opcode : OpCode} (reserved : b0 &&& 0x70 = 0)
    (named : OpCode.tryFrom (b0 &&& 0x0F) = .ok opcode) :
    (if b0 &&& 0x80 != 0 then opcode.toByte ||| 0x80 else opcode.toByte) = b0 := by
  have fields : ∀ n < 256, UInt8.ofNat n &&& 0x70 = 0 →
      (if UInt8.ofNat n &&& 0x80 != 0 then UInt8.ofNat n &&& 0x0F ||| 0x80
        else UInt8.ofNat n &&& 0x0F) = UInt8.ofNat n := by
    decide +kernel
  rw [OpCode.toByte_of_tryFrom named]
  simpa using fields b0.toNat b0.toNat_lt (by simpa using reserved)

/-- Byte 1 is written back from the fields read off it. -/
theorem headerByte1_back (b1 : UInt8) :
    (if b1 &&& 0x80 != 0 then 0x80 else 0) ||| (b1 &&& 0x7F) = b1 := by
  have fields : ∀ n < 256,
      (if UInt8.ofNat n &&& 0x80 != 0 then 0x80 else 0) ||| (UInt8.ofNat n &&& 0x7F) =
        UInt8.ofNat n := by
    decide +kernel
  simpa using fields b1.toNat b1.toNat_lt

/-! ## Round trip -/

/-- The length form that `encodeHeader` chooses. -/
def lenForm (payloadLen : Nat) : Nat × Bytes :=
  if payloadLen ≤ 125 then (payloadLen, [])
  else if payloadLen ≤ 0xFFFF then (126, toBe 2 payloadLen)
  else (127, toBe 8 payloadLen)

theorem lenForm_small (payloadLen : Nat) : (lenForm payloadLen).1 < 128 := by
  unfold lenForm
  repeat' split
  all_goals omega

/-- The bytes of a mask key, if there is one. -/
def maskField : Option MaskKey → Bytes
  | some key => key.toBytes
  | none => []

theorem encodeHeader_eq (fin : Bool) (opcode : OpCode) (mask : Option MaskKey) (payloadLen : Nat) :
    encodeHeader fin opcode mask payloadLen =
      (if fin then opcode.toByte ||| 0x80 else opcode.toByte) ::
        ((if mask.isSome then 0x80 else 0) ||| UInt8.ofNat (lenForm payloadLen).1) ::
          ((lenForm payloadLen).2 ++ maskField mask) := by
  unfold encodeHeader lenForm maskField
  dsimp only
  repeat' split
  all_goals first | rfl | simp_all

theorem payloadLenField_lenForm {payloadLen : Nat} (addressable : payloadLen < 2 ^ 63)
    (rest : Bytes) :
    payloadLenField (UInt8.ofNat (lenForm payloadLen).1) ((lenForm payloadLen).2 ++ rest) =
      .ok (some (payloadLen, (lenForm payloadLen).2.length)) := by
  unfold lenForm
  by_cases short : payloadLen ≤ 125
  · have small : UInt8.ofNat payloadLen ≤ 125 := by
      rw [UInt8.le_iff_toNat_le]
      simp
      omega
    have value : (UInt8.ofNat payloadLen).toNat = payloadLen := by
      simp
      omega
    simp only [if_pos short, payloadLenField, if_pos small, value]
    rfl
  · by_cases medium : payloadLen ≤ 0xFFFF
    · have value : beNat (toBe 2 payloadLen) = payloadLen := beNat_toBe (by omega)
      have taken : (toBe 2 payloadLen ++ rest).take 2 = toBe 2 payloadLen := by simp
      have long : ¬ (toBe 2 payloadLen ++ rest).length < 2 := by
        rw [List.length_append, toBe_length]
        omega
      have minimal : ¬ payloadLen < 126 := by omega
      simp only [if_neg short, if_pos medium, payloadLenField, taken, value, if_neg long,
        if_neg minimal, toBe_length]
      rfl
    · have value : beNat (toBe 8 payloadLen) = payloadLen := beNat_toBe (by omega)
      have taken : (toBe 8 payloadLen ++ rest).take 8 = toBe 8 payloadLen := by simp
      have long : ¬ (toBe 8 payloadLen ++ rest).length < 8 := by
        rw [List.length_append, toBe_length]
        omega
      have addressed : ¬ 2 ^ 63 ≤ payloadLen := by omega
      simp only [if_neg short, if_neg medium, payloadLenField, taken, value, if_neg long,
        if_neg addressed, toBe_length]
      rfl

/-- Control frames are whole and short. -/
def HeaderAllowed (fin : Bool) (opcode : OpCode) (payloadLen : Nat) : Prop :=
  payloadLen < 2 ^ 63 ∧
    (opcode.isControl = true → fin = true ∧ payloadLen ≤ maxControlPayload)

theorem parseHeader_encodeHeader {fin : Bool} {opcode : OpCode} {payloadLen : Nat}
    (allowed : HeaderAllowed fin opcode payloadLen) (mask : Option MaskKey) (rest : Bytes) :
    parseHeader (encodeHeader fin opcode mask payloadLen ++ rest) =
      .ok (some (⟨fin, opcode, mask, payloadLen⟩,
        (encodeHeader fin opcode mask payloadLen).length)) := by
  obtain ⟨addressable, control⟩ := allowed
  obtain ⟨isFin, reserved, named⟩ := headerByte0_fields fin opcode
  obtain ⟨isMasked, seven⟩ := headerByte1_fields mask.isSome (lenForm_small payloadLen)
  have field := payloadLenField_lenForm addressable (maskField mask ++ rest)
  have whole : (opcode.isControl && !fin) = false := by
    cases isControl : opcode.isControl with
    | false => rfl
    | true => simp [(control isControl).1]
  have short : (opcode.isControl && decide (maxControlPayload < payloadLen)) = false := by
    cases isControl : opcode.isControl with
    | false => rfl
    | true => simpa using (control isControl).2
  have keyed : (maskField mask).length = maskFieldSize mask.isSome := by
    cases mask <;> rfl
  have key : (if mask.isSome = true then
      some (MaskKey.ofBytes (maskField mask ++ rest)) else none) = mask := by
    cases mask <;> rfl
  rw [encodeHeader_eq, List.cons_append, List.cons_append, List.append_assoc]
  simp only [parseHeader, isFin, reserved, named, isMasked, seven, field, whole, short,
    Bool.false_eq_true, if_false, List.drop_left, key, List.length_append, List.length_cons,
    keyed]
  rw [if_neg (by omega)]
  congr 3
  omega

/-! ## Accepted bytes written back -/

/-- A length that was accepted is in the form `encodeHeader` chooses for it. -/
theorem lenForm_of_payloadLenField {len7 : UInt8} {rest : Bytes} {payloadLen size : Nat}
    (seven : len7.toNat < 128)
    (parsed : payloadLenField len7 rest = .ok (some (payloadLen, size))) :
    payloadLen < 2 ^ 63 ∧ (lenForm payloadLen).1 = len7.toNat ∧
      (lenForm payloadLen).2 = rest.take size := by
  simp only [payloadLenField] at parsed
  split at parsed
  next short =>
    cases parsed
    rw [UInt8.le_iff_toNat_le] at short
    have small : len7.toNat ≤ 125 := short
    simp only [lenForm, if_pos small, List.take_zero, and_self, and_true]
    omega
  next long =>
    rw [UInt8.le_iff_toNat_le] at long
    have large : ¬ len7.toNat ≤ 125 := long
    split at parsed
    next is126 =>
      split at parsed
      next => cases parsed
      next enough =>
        split at parsed
        next => cases parsed
        next minimal =>
          cases parsed
          have fits := beNat_take_two_lt rest
          have width : (rest.take 2).length = 2 := by
            rw [List.length_take]
            omega
          have back := toBe_beNat (rest.take 2)
          rw [width] at back
          have is126 : len7 = 126 := eq_of_beq is126
          rw [lenForm, if_neg (by omega), if_pos (by omega), back, is126]
          exact ⟨by omega, rfl, rfl⟩
    next not126 =>
      split at parsed
      next => cases parsed
      next enough =>
        split at parsed
        next => cases parsed
        next addressable =>
          split at parsed
          next => cases parsed
          next minimal =>
            cases parsed
            have width : (rest.take 8).length = 8 := by
              rw [List.length_take]
              omega
            have back := toBe_beNat (rest.take 8)
            rw [width] at back
            have is127 : len7.toNat = 127 := by
              have : len7.toNat ≠ 126 := fun same =>
                not126 (beq_of_eq (UInt8.toNat_inj.mp same))
              omega
            rw [lenForm, if_neg (by omega), if_neg minimal, back, is127]
            exact ⟨by omega, rfl, rfl⟩

/-- The mask key, read and written back. -/
theorem maskField_ofBytes (masked : Bool) {bytes : Bytes}
    (enough : maskFieldSize masked ≤ bytes.length) :
    maskField (if masked then some (MaskKey.ofBytes bytes) else none) =
      bytes.take (maskFieldSize masked) := by
  cases masked with
  | false => rfl
  | true =>
      match bytes, enough with
      | _ :: _ :: _ :: _ :: _, _ => rfl

/-- What `parseHeader` accepts is a header that `encodeHeader` may be asked for, and the bytes it
took are the ones `encodeHeader` writes. -/
theorem encodeHeader_of_parseHeader {bytes : Bytes} {header : FrameHeader} {size : Nat}
    (parsed : parseHeader bytes = .ok (some (header, size))) :
    HeaderAllowed header.fin header.opcode header.payloadLen ∧ size ≤ bytes.length ∧
      encodeHeader header.fin header.opcode header.mask header.payloadLen = bytes.take size := by
  match bytes with
  | [] => cases parsed
  | [_] => cases parsed
  | b0 :: b1 :: rest =>
      obtain ⟨-, bound, isFin, named, isMasked, reserved, -⟩ := parseHeader_some_size parsed
      have seven : (b1 &&& 0x7F).toNat < 128 := by
        have := UInt8.toNat_and b1 0x7F
        have := Nat.and_le_right (n := b1.toNat) (m := (0x7F : UInt8).toNat)
        have bits : (0x7F : UInt8).toNat = 127 := rfl
        omega
      simp only [parseHeader] at parsed
      split at parsed
      next => cases parsed
      split at parsed
      next => cases parsed
      next opcode opcodeEq =>
        split at parsed
        next => cases parsed
        next => cases parsed
        next payloadLen lenSize lenEq =>
          obtain ⟨addressable, form, field⟩ := lenForm_of_payloadLenField seven lenEq
          split at parsed
          next => cases parsed
          next whole =>
            split at parsed
            next => cases parsed
            next short =>
              split at parsed
              next => cases parsed
              next enough =>
                simp only [Except.ok.injEq, Option.some.injEq, Prod.mk.injEq] at parsed
                obtain ⟨rfl, rfl⟩ := parsed
                constructor
                · constructor
                  · exact addressable
                  · intro isControl
                    exact ⟨by simpa [isControl] using whole, by simpa [isControl] using short⟩
                · constructor
                  · exact bound
                  · have key : maskFieldSize (b1 &&& 0x80 != 0) ≤ (rest.drop lenSize).length := by
                      rw [List.length_drop]
                      omega
                    have mask := maskField_ofBytes (b1 &&& 0x80 != 0) key
                    have tail : 2 + lenSize + maskFieldSize (b1 &&& 0x80 != 0) =
                        lenSize + maskFieldSize (b1 &&& 0x80 != 0) + 1 + 1 := by omega
                    rw [encodeHeader_eq, headerByte0_back reserved named, isMasked, form,
                      UInt8.ofNat_toNat, headerByte1_back, field, mask, tail,
                      List.take_succ_cons, List.take_succ_cons, List.take_add]

theorem encodeHeader_length (fin : Bool) (opcode : OpCode) (mask : Option MaskKey)
    (payloadLen : Nat) : (encodeHeader fin opcode mask payloadLen).length ≤ maxHeaderLen := by
  have form : (lenForm payloadLen).2.length ≤ 8 := by
    rw [lenForm]
    repeat' split
    all_goals simp
  have key : (maskField mask).length ≤ 4 := by
    cases mask <;> simp [maskField, MaskKey.toBytes]
  rw [encodeHeader_eq, List.length_cons, List.length_cons, List.length_append]
  exact Nat.add_le_add_right (Nat.add_le_add_right (Nat.add_le_add form key) 1) 1

/-! ## Cut headers -/

/-- A cut header asks for more bytes. -/
theorem parseHeader_cut {bytes : Bytes} {header : FrameHeader} {size : Nat}
    (parsed : parseHeader bytes = .ok (some (header, size))) {cut : Nat} (short : cut < size) :
    parseHeader (bytes.take cut) = .ok none := by
  by_contra settled
  -- a verdict on the cut header would be the verdict on the whole, which is longer
  have same := parseHeader_append settled (bytes.drop cut)
  rw [List.take_append_drop, parsed] at same
  have bound := (parseHeader_some_minNeeded same.symm).2
  have := List.length_take_le cut bytes
  omega

/-- The codec of frame headers.  Every allowed header comes back from what `encodeHeader` writes
for it, whatever follows; what `parseHeader` accepts is what `encodeHeader` writes for the header
it returns, and all of it is needed; an error stays. -/
theorem headerCodec_exact :
    (∀ fin opcode mask payloadLen, HeaderAllowed fin opcode payloadLen →
      (encodeHeader fin opcode mask payloadLen).length ≤ maxHeaderLen ∧
        ∀ rest, parseHeader (encodeHeader fin opcode mask payloadLen ++ rest) =
          .ok (some (⟨fin, opcode, mask, payloadLen⟩,
            (encodeHeader fin opcode mask payloadLen).length))) ∧
    (∀ bytes header size, parseHeader bytes = .ok (some (header, size)) →
      HeaderAllowed header.fin header.opcode header.payloadLen ∧ size ≤ bytes.length ∧
        encodeHeader header.fin header.opcode header.mask header.payloadLen = bytes.take size ∧
        ∀ cut < size, parseHeader (bytes.take cut) = .ok none) ∧
    ∀ bytes e, parseHeader bytes = .error e → ∀ more, parseHeader (bytes ++ more) = .error e := by
  constructor
  · intro fin opcode mask payloadLen allowed
    exact ⟨encodeHeader_length fin opcode mask payloadLen,
      parseHeader_encodeHeader allowed mask⟩
  · constructor
    · intro bytes header size parsed
      obtain ⟨allowed, bound, back⟩ := encodeHeader_of_parseHeader parsed
      exact ⟨allowed, bound, back, fun cut short => parseHeader_cut parsed short⟩
    · intro bytes e refused more
      rw [parseHeader_append (by rw [refused]; intro h; cases h), refused]

end Talaris.Ws
