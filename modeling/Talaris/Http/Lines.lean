import Talaris.Text

/-!
# Texts taken apart

What the splitting functions of the standard library say about the text they split,
and where the bytes of its ASCII characters stand.
-/

namespace Talaris

namespace Text

/-! ## At one character -/

theorem splitOnce_some_iff {sep : Char} {text head tail : Text} :
    splitOnce sep text = some (head, tail) ↔ text = head ++ sep :: tail ∧ sep ∉ head := by
  induction text generalizing head with
  | nil => simp [splitOnce]
  | cons c rest ih =>
      simp only [splitOnce]
      split
      next here =>
        obtain rfl : c = sep := eq_of_beq here
        constructor
        · intro split
          cases split
          exact ⟨rfl, List.not_mem_nil⟩
        · rintro ⟨text, first⟩
          cases head with
          | nil =>
              cases text
              rfl
          | cons c' head =>
              cases text
              exact absurd (List.mem_cons_self ..) first
      next other =>
        have distinct : sep ≠ c := fun same => other (beq_of_eq same.symm)
        constructor
        · intro split
          obtain ⟨⟨head', tail'⟩, found, same⟩ := Option.map_eq_some_iff.mp split
          cases same
          obtain ⟨rest', first⟩ := ih.mp found
          exact ⟨by rw [rest']; rfl, by simp [distinct, first]⟩
        · rintro ⟨text, first⟩
          cases head with
          | nil =>
              cases text
              exact absurd rfl distinct
          | cons c' head =>
              cases text
              rw [List.mem_cons, not_or] at first
              rw [ih.mpr ⟨rfl, first.2⟩]
              rfl

theorem splitOnce_none_iff {sep : Char} {text : Text} :
    splitOnce sep text = none ↔ sep ∉ text := by
  induction text with
  | nil => simp [splitOnce]
  | cons c rest ih =>
      simp only [splitOnce]
      split
      next here =>
        obtain rfl : c = sep := eq_of_beq here
        simp
      next other =>
        have distinct : sep ≠ c := fun same => other (beq_of_eq same.symm)
        simp [ih, distinct]

/-! ## At line ends -/

theorem splitCrlf_ne_nil (text : Text) : splitCrlf text ≠ [] := by
  fun_cases splitCrlf text <;> simp_all

/-- A first line is empty only before a line end or in front of nothing. -/
theorem splitCrlf_first_empty {text : Text} {lines : List Text}
    (split : splitCrlf text = [] :: lines) :
    text = [] ∧ lines = [] ∨ ∃ rest, text = '\r' :: '\n' :: rest ∧ splitCrlf rest = lines := by
  fun_cases splitCrlf text with
  | case1 => 
    left
    cases split
    exact ⟨rfl, rfl⟩
  | case2 rest =>
    right
    cases split
    exact ⟨rest, rfl, rfl⟩
  | case3 => simp_all [splitCrlf]
  | case4 => simp_all [splitCrlf]

/-- An empty line behind the first one follows a line end directly. -/
theorem splitCrlf_blank {text first : Text} {lines : List Text}
    (split : splitCrlf text = first :: lines) (blank : [] ∈ lines) :
    (∃ before after, text = before ++ ['\r', '\n', '\r', '\n'] ++ after) ∨
      ∃ before, text = before ++ ['\r', '\n'] := by
  fun_induction splitCrlf text generalizing first lines with
  | case1 =>
      cases split
      cases blank
  | case2 rest ih =>
      obtain ⟨rfl, rfl⟩ := List.cons.inj split
      obtain ⟨piece, pieces, rest'⟩ := List.exists_cons_of_ne_nil (splitCrlf_ne_nil rest)
      rw [rest'] at blank
      cases blank with
      | head =>
          rcases splitCrlf_first_empty rest' with ⟨rfl, -⟩ | ⟨after, rfl, -⟩
          · exact .inr ⟨[], rfl⟩
          · exact .inl ⟨[], after, rfl⟩
      | tail _ blank =>
          rcases ih rest' blank with ⟨before, after, rfl⟩ | ⟨before, rfl⟩
          · exact .inl ⟨'\r' :: '\n' :: before, after, rfl⟩
          · exact .inr ⟨'\r' :: '\n' :: before, rfl⟩
  | case3 c rest notEnd piece pieces rest' ih =>
      obtain ⟨rfl, rfl⟩ := List.cons.inj split
      rcases ih rest' blank with ⟨before, after, rfl⟩ | ⟨before, rfl⟩
      · exact .inl ⟨c :: before, after, rfl⟩
      · exact .inr ⟨c :: before, rfl⟩
  | case4 c rest notEnd none ih => exact absurd none (splitCrlf_ne_nil rest)

end Text

namespace Utf8

/-! ## Single characters -/

theorem ofNat_large {n : Nat} (valid : n.isValidChar) (large : 128 ≤ n) :
    ¬ (Char.ofNat n).toNat < 128 := by
  have same : (Char.ofNat n).toNat = n := by
    rw [Char.ofNat, dif_pos valid]
    rfl
  omega

/-- The scalar values of the longer sequences are no ASCII and no surrogates. -/
theorem isTwo_scalar {b0 b1 : UInt8} (two : isTwo b0 b1) :
    let n := b0.toNat % 32 * 64 + low6 b1
    n.isValidChar ∧ 128 ≤ n := by
  have := b0.toNat_lt
  have := b1.toNat_lt
  simp only [isTwo, isCont, Bool.and_eq_true, decide_eq_true_eq, UInt8.le_iff_toNat_le,
    UInt8.reduceToNat] at two
  simp only [Nat.isValidChar, low6]
  omega

theorem isThree_scalar {b0 b1 b2 : UInt8} (three : isThree b0 b1 b2) :
    let n := b0.toNat % 16 * 4096 + low6 b1 * 64 + low6 b2
    n.isValidChar ∧ 128 ≤ n := by
  have := b0.toNat_lt
  have := b1.toNat_lt
  have := b2.toNat_lt
  simp only [isThree, isCont, Bool.and_eq_true, Bool.or_eq_true, decide_eq_true_eq,
    beq_iff_eq, ← UInt8.toNat_inj, UInt8.le_iff_toNat_le, UInt8.reduceToNat] at three
  simp only [Nat.isValidChar, low6]
  omega

theorem isFour_scalar {b0 b1 b2 b3 : UInt8} (four : isFour b0 b1 b2 b3) :
    let n := b0.toNat % 8 * 262144 + low6 b1 * 4096 + low6 b2 * 64 + low6 b3
    n.isValidChar ∧ 128 ≤ n := by
  have := b0.toNat_lt
  have := b1.toNat_lt
  have := b2.toNat_lt
  have := b3.toNat_lt
  simp only [isFour, isCont, Bool.and_eq_true, Bool.or_eq_true, decide_eq_true_eq,
    beq_iff_eq, ← UInt8.toNat_inj, UInt8.le_iff_toNat_le, UInt8.reduceToNat] at four
  simp only [Nat.isValidChar, low6]
  omega

/-- The bytes of the first character; an ASCII character has one, its own. -/
theorem fromUtf8_cons {bytes : Bytes} {c : Char} {text : Text}
    (decoded : fromUtf8 bytes = some (c :: text)) :
    ∃ chunk rest, bytes = chunk ++ rest ∧ fromUtf8 rest = some text ∧
      (c.toNat < 128 → chunk = [UInt8.ofNat c.toNat]) := by
  -- a sequence of several bytes stands for a character beyond ASCII
  have longer {chunk rest : Bytes} {n : Nat} (scalar : n.isValidChar ∧ 128 ≤ n)
      (found : (fromUtf8 rest).map (Char.ofNat n :: ·) = some (c :: text)) :
      ∃ chunk' rest', chunk ++ rest = chunk' ++ rest' ∧ fromUtf8 rest' = some text ∧
        (c.toNat < 128 → chunk' = [UInt8.ofNat c.toNat]) := by
    obtain ⟨text', tail, same⟩ := Option.map_eq_some_iff.mp found
    cases same
    exact ⟨chunk, rest, rfl, tail, fun small => absurd small (ofNat_large scalar.1 scalar.2)⟩
  fun_cases fromUtf8 bytes with
  | case1 => cases decoded
  | case2 b0 rest ascii =>
      rw [fromUtf8.eq_def] at decoded
      simp only [if_pos ascii] at decoded
      obtain ⟨text', tail, same⟩ := Option.map_eq_some_iff.mp decoded
      cases same
      have same : (Char.ofNat b0.toNat).toNat = b0.toNat := by
        rw [UInt8.lt_iff_toNat_lt] at ascii
        have small : b0.toNat < 128 := ascii
        rw [Char.ofNat, dif_pos (.inl (by omega))]
        rfl
      exact ⟨[b0], rest, rfl, tail, fun _ => by rw [same, UInt8.ofNat_toNat]⟩
  | case3 b0 beyond =>
      rw [fromUtf8.eq_def] at decoded
      simp only [if_neg beyond] at decoded
      cases decoded
  | case4 b0 beyond b1 rest two =>
      rw [fromUtf8.eq_def] at decoded
      simp only [if_neg beyond, two, if_true] at decoded
      exact @longer [b0, b1] rest _ (isTwo_scalar two) decoded
  | case5 b0 beyond b1 notTwo =>
      rw [fromUtf8.eq_def] at decoded
      simp only [if_neg beyond, notTwo] at decoded
      cases decoded
  | case6 b0 beyond b1 notTwo b2 rest three =>
      rw [fromUtf8.eq_def] at decoded
      simp only [if_neg beyond, notTwo, three, if_true] at decoded
      exact @longer [b0, b1, b2] rest _ (isThree_scalar three) decoded
  | case7 b0 beyond b1 notTwo b2 notThree =>
      rw [fromUtf8.eq_def] at decoded
      simp only [if_neg beyond, notTwo, notThree] at decoded
      cases decoded
  | case8 b0 beyond b1 notTwo b2 notThree b3 rest four =>
      rw [fromUtf8.eq_def] at decoded
      simp only [if_neg beyond, notTwo, notThree, four, if_true] at decoded
      exact @longer [b0, b1, b2, b3] rest _ (isFour_scalar four) decoded
  | case9 b0 beyond b1 notTwo b2 notThree b3 rest notFour =>
      rw [fromUtf8.eq_def] at decoded
      simp only [if_neg beyond, notTwo, notThree, notFour] at decoded
      cases decoded

theorem fromUtf8_nil {bytes : Bytes} (decoded : fromUtf8 bytes = some []) : bytes = [] := by
  cases bytes with
  | nil => rfl
  | cons b0 rest =>
      rw [fromUtf8.eq_def] at decoded
      simp only at decoded
      repeat' split at decoded
      all_goals simp at decoded

/-- A decoded text, cut where its bytes can be cut. -/
theorem fromUtf8_append {bytes : Bytes} {before after : Text}
    (decoded : fromUtf8 bytes = some (before ++ after)) :
    ∃ front back, bytes = front ++ back ∧ fromUtf8 back = some after := by
  induction before generalizing bytes with
  | nil => exact ⟨[], bytes, rfl, decoded⟩
  | cons c before ih =>
      obtain ⟨chunk, rest, rfl, tail, -⟩ := fromUtf8_cons decoded
      obtain ⟨front, back, rfl, found⟩ := ih tail
      exact ⟨chunk ++ front, back, (List.append_assoc ..).symm, found⟩

/-- ASCII text at the front is its own bytes. -/
theorem fromUtf8_ascii {bytes : Bytes} {ascii after : Text} (small : ∀ c ∈ ascii, c.toNat < 128)
    (decoded : fromUtf8 bytes = some (ascii ++ after)) :
    ∃ back, bytes = ascii.map (fun c => UInt8.ofNat c.toNat) ++ back ∧
      fromUtf8 back = some after := by
  induction ascii generalizing bytes with
  | nil => exact ⟨bytes, rfl, decoded⟩
  | cons c ascii ih =>
      rw [List.forall_mem_cons] at small
      obtain ⟨chunk, rest, rfl, tail, own⟩ := fromUtf8_cons decoded
      obtain ⟨back, rfl, found⟩ := ih small.2 tail
      exact ⟨back, by rw [own small.1]; rfl, found⟩

end Utf8

end Talaris
