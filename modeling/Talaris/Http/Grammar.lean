import Talaris.Http
import Talaris.Http.Lines

/-!
# The grammar of a response

`ResponseHead` says which bytes in front of the blank line are the head of a response,
and what they carry.  `parseResponse` accepts these heads, and besides them only heads
whose status is not three digits but a number that `u16` parsing takes all the same
(`parseResponse_specified_iff`).
-/

namespace Talaris.Http

/-! ## Where the head ends -/

/-- `\r\n\r\n` stands at a position. -/
def TerminatorAt (input : Bytes) (position : Nat) : Prop :=
  (input.drop position).take 4 = [13, 10, 13, 10]

/-- The first `\r\n\r\n`, inside the window that is searched. -/
structure FirstTerminator (input : Bytes) (position : Nat) : Prop where
  here : TerminatorAt input position
  first : ∀ earlier < position, ¬ TerminatorAt input earlier
  within : position + 4 ≤ maxResponseHeaderBytes

theorem TerminatorAt.bound {input : Bytes} {position : Nat} (here : TerminatorAt input position) :
    position + 4 ≤ input.length := by
  have length := congrArg List.length here
  simp only [List.length_take, List.length_drop, List.length_cons, List.length_nil] at length
  omega

/-- A `\r\n\r\n` inside a prefix is one of the whole. -/
theorem terminatorAt_take {input : Bytes} {size position : Nat} :
    TerminatorAt (input.take size) position ↔ TerminatorAt input position ∧ position + 4 ≤ size := by
  constructor
  · intro here
    have bound := here.bound
    rw [List.length_take] at bound
    rw [TerminatorAt, List.drop_take, List.take_take, Nat.min_eq_left (by omega)] at here
    exact ⟨here, by omega⟩
  · rintro ⟨here, inside⟩
    rw [TerminatorAt, List.drop_take, List.take_take, Nat.min_eq_left (by omega)]
    exact here

theorem findDoubleCrlf_some_iff {input : Bytes} {position : Nat} :
    findDoubleCrlf input = some position ↔
      TerminatorAt input position ∧ ∀ earlier < position, ¬ TerminatorAt input earlier := by
  induction input generalizing position with
  | nil => simp [findDoubleCrlf, TerminatorAt]
  | cons b rest ih =>
      simp only [findDoubleCrlf]
      split
      next here =>
        have start : TerminatorAt (b :: rest) 0 := eq_of_beq here
        constructor
        · intro found
          cases found
          exact ⟨start, fun _ none => absurd none (Nat.not_lt_zero _)⟩
        · rintro ⟨-, first⟩
          have : position = 0 := by
            by_contra some
            exact first 0 (Nat.pos_of_ne_zero some) start
          rw [this]
      next elsewhere =>
        have start : ¬ TerminatorAt (b :: rest) 0 := fun here => elsewhere (beq_of_eq here)
        constructor
        · intro found
          obtain ⟨before, tail, rfl⟩ := Option.map_eq_some_iff.mp found
          obtain ⟨here, first⟩ := ih.mp tail
          refine ⟨here, fun earlier smaller => ?_⟩
          cases earlier with
          | zero => exact start
          | succ earlier => exact first earlier (by omega)
        · rintro ⟨here, first⟩
          cases position with
          | zero => exact absurd here start
          | succ position =>
              rw [ih.mpr ⟨here, fun earlier smaller => first (earlier + 1) (by omega)⟩]
              rfl

theorem findDoubleCrlf_none_iff {input : Bytes} :
    findDoubleCrlf input = none ↔ ∀ position, ¬ TerminatorAt input position := by
  constructor
  · intro none
    -- the least position would have been found
    by_contra some
    push Not at some
    classical
    have least := findDoubleCrlf_some_iff.mpr
      ⟨Nat.find_spec some, fun _ smaller => Nat.find_min some smaller⟩
    rw [none] at least
    cases least
  · intro nowhere
    cases found : findDoubleCrlf input with
    | none => rfl
    | some position => exact absurd (findDoubleCrlf_some_iff.mp found).1 (nowhere position)

theorem findWindow_some_iff {input : Bytes} {position : Nat} :
    findDoubleCrlf (input.take maxResponseHeaderBytes) = some position ↔
      FirstTerminator input position := by
  rw [findDoubleCrlf_some_iff]
  constructor
  · rintro ⟨here, first⟩
    obtain ⟨here, within⟩ := terminatorAt_take.mp here
    exact ⟨here, fun earlier smaller at_ =>
      first earlier smaller (terminatorAt_take.mpr ⟨at_, by omega⟩), within⟩
  · rintro ⟨here, first, within⟩
    exact ⟨terminatorAt_take.mpr ⟨here, within⟩, fun earlier smaller at_ =>
      first earlier smaller (terminatorAt_take.mp at_).1⟩

theorem findWindow_none_iff {input : Bytes} :
    findDoubleCrlf (input.take maxResponseHeaderBytes) = none ↔
      ∀ position, TerminatorAt input position → maxResponseHeaderBytes < position + 4 := by
  rw [findDoubleCrlf_none_iff]
  refine forall_congr' fun position => ?_
  rw [terminatorAt_take]
  constructor
  · intro outside here
    exact Nat.lt_of_not_le fun inside => outside ⟨here, inside⟩
  · rintro outside ⟨here, inside⟩
    exact absurd (outside here) (Nat.not_lt.mpr inside)

/-! ## The grammar -/

/-- `name ':' value`.  A transfer encoding must be the identity. -/
inductive HeaderLine : Text → Text × Text → Prop where
  | mk {name value : Text} (named : name ≠ []) (clean : ∀ c ∈ name, c ≠ ':' ∧ c ≠ ' ' ∧ c ≠ '\t')
      (encoding : Text.eqIgnoreAsciiCase name "Transfer-Encoding".toList →
        Text.eqIgnoreAsciiCase (Text.trim value) "identity".toList) :
      HeaderLine (name ++ ':' :: value) (name, Text.trim value)

/-- `HTTP/1.1`, a space and a code without spaces, and perhaps a space and a reason. -/
inductive StatusLine : Text → Text → Text → Prop where
  | bare {code : Text} (word : ' ' ∉ code) :
      StatusLine ("HTTP/1.1".toList ++ ' ' :: code) code []
  | reasoned {code : Text} (word : ' ' ∉ code) (reason : Text) :
      StatusLine ("HTTP/1.1".toList ++ ' ' :: (code ++ ' ' :: reason)) code reason

/-- Three ASCII digits and their value. -/
def ThreeDigits (code : Text) (status : Nat) : Prop :=
  ∃ a < 10, ∃ b < 10, ∃ c < 10,
    code = [Nat.digitChar a, Nat.digitChar b, Nat.digitChar c] ∧ status = 100 * a + 10 * b + c

/-- The head of a response, given how its status is written. -/
inductive ResponseHead (written : Text → Nat → Prop) (head : Bytes) (status : Nat) (reason : Text)
    (headers : List (Text × Text)) : Prop where
  | mk {text statusLine code : Text} {lines : List Text} (decoded : Utf8.fromUtf8 head = some text)
      (split : Text.splitCrlf text = statusLine :: lines)
      (first : StatusLine statusLine code reason) (code : written code status)
      (count : lines.length ≤ maxResponseHeaderCount) (fields : List.Forall₂ HeaderLine lines headers)

/-! ## Reading the lines -/

theorem parseStatusLine_ok_iff {line version reason : Text} {status : Nat} :
    parseStatusLine line = .ok (version, status, reason) ↔
      version = "HTTP/1.1".toList ∧
        ∃ code, StatusLine line code reason ∧ Text.parseU16 code = some status := by
  constructor
  · intro parsed
    simp only [parseStatusLine] at parsed
    cases spaced : Text.splitOnce ' ' line with
    | none =>
        simp only [spaced] at parsed
        split at parsed <;> cases parsed
    | some pieces =>
        obtain ⟨head, tail⟩ := pieces
        obtain ⟨rfl, -⟩ := Text.splitOnce_some_iff.mp spaced
        simp only [spaced] at parsed
        split at parsed
        next => cases parsed
        next supported =>
          obtain rfl : head = "HTTP/1.1".toList := by simpa using supported
          cases reasoned : Text.splitOnce ' ' tail with
          | none =>
              simp only [reasoned] at parsed
              cases number : Text.parseU16 tail with
              | none => simp only [number] at parsed; cases parsed
              | some code =>
                  simp only [number] at parsed
                  cases parsed
                  exact ⟨rfl, tail, .bare (Text.splitOnce_none_iff.mp reasoned), number⟩
          | some pieces =>
              obtain ⟨codeStr, reason'⟩ := pieces
              obtain ⟨rfl, word⟩ := Text.splitOnce_some_iff.mp reasoned
              simp only [reasoned] at parsed
              cases number : Text.parseU16 codeStr with
              | none => simp only [number] at parsed; cases parsed
              | some code =>
                  simp only [number] at parsed
                  cases parsed
                  exact ⟨rfl, codeStr, .reasoned word _, number⟩
  · rintro ⟨rfl, code, first, number⟩
    have version (tail : Text) : Text.splitOnce ' ' ("HTTP/1.1".toList ++ ' ' :: tail) =
        some ("HTTP/1.1".toList, tail) := Text.splitOnce_some_iff.mpr ⟨rfl, by decide⟩
    have same : ("HTTP/1.1".toList != "HTTP/1.1".toList) = false := by decide
    cases first with
    | bare word =>
        simp only [parseStatusLine, version, same, Text.splitOnce_none_iff.mpr word, number,
          Bool.false_eq_true, if_false]
    | reasoned word reason =>
        simp only [parseStatusLine, version, same, Text.splitOnce_some_iff.mpr ⟨rfl, word⟩, number,
          Bool.false_eq_true, if_false]

/-- The pieces of a status line, as splitting finds them. -/
theorem StatusLine.pieces {line code reason : Text} (first : StatusLine line code reason) :
    ∃ tail, Text.splitOnce ' ' line = some ("HTTP/1.1".toList, tail) ∧
      (Text.splitOnce ' ' tail).getD (tail, []) = (code, reason) := by
  cases first with
  | bare word =>
      refine ⟨code, Text.splitOnce_some_iff.mpr ⟨rfl, by decide⟩, ?_⟩
      rw [Text.splitOnce_none_iff.mpr word]
      rfl
  | reasoned word reason =>
      refine ⟨code ++ ' ' :: reason, Text.splitOnce_some_iff.mpr ⟨rfl, by decide⟩, ?_⟩
      rw [Text.splitOnce_some_iff.mpr ⟨rfl, word⟩]
      rfl

/-- A status line has one code and one reason. -/
theorem StatusLine.unique {line code code' reason reason' : Text}
    (first : StatusLine line code reason) (second : StatusLine line code' reason') :
    code = code' ∧ reason = reason' := by
  obtain ⟨tail, split, pieces⟩ := first.pieces
  obtain ⟨tail', split', pieces'⟩ := second.pieces
  rw [split, Option.some.injEq, Prod.mk.injEq] at split'
  rw [← split'.2, pieces] at pieces'
  exact Prod.mk.inj pieces'

theorem parseHeaderLine_ok_iff {line : Text} {header : Text × Text} :
    parseHeaderLine line = .ok header ↔ HeaderLine line header := by
  constructor
  · intro parsed
    simp only [parseHeaderLine] at parsed
    cases split : Text.splitOnce ':' line with
    | none => simp only [split] at parsed; cases parsed
    | some pieces =>
        obtain ⟨name, value⟩ := pieces
        obtain ⟨rfl, colon⟩ := Text.splitOnce_some_iff.mp split
        simp only [split] at parsed
        split at parsed
        next => cases parsed
        next wellNamed =>
          split at parsed
          next => cases parsed
          next encoding =>
            cases parsed
            rw [Bool.or_eq_true, not_or] at wellNamed
            constructor
            case named => simpa using wellNamed.1
            case clean =>
              intro c member
              have blankFree : ¬ (c = ' ' ∨ c = '\t') := by
                intro blank
                apply wellNamed.2
                exact List.any_eq_true.mpr ⟨c, member, by simpa using blank⟩
              exact ⟨fun same => colon (same ▸ member), not_or.mp blankFree⟩
            case encoding => simpa using encoding
  · rintro ⟨named, clean, encoding⟩
    next name value =>
    have colon : ':' ∉ name := fun member => (clean ':' member).1 rfl
    have wellNamed : (name.isEmpty || name.any fun c => c == ' ' || c == '\t') = false := by
      rw [Bool.or_eq_false_iff]
      constructor
      · simpa using named
      · rw [List.any_eq_false]
        intro c member
        simpa using (clean c member).2
    have identity : (Text.eqIgnoreAsciiCase name "Transfer-Encoding".toList &&
        !Text.eqIgnoreAsciiCase (Text.trim value) "identity".toList) = false := by
      simpa using encoding
    simp only [parseHeaderLine, Text.splitOnce_some_iff.mpr ⟨rfl, colon⟩, wellNamed, identity,
      Bool.false_eq_true, if_false]

theorem HeaderLine.ne_nil {line : Text} {header : Text × Text} (field : HeaderLine line header) :
    line ≠ [] := by
  cases field with
  | mk named => simp

/-- The header loop takes every line, as long as none is blank. -/
theorem parseHeaders_ok_iff {lines : List Text} (solid : [] ∉ lines)
    {before headers : List (Text × Text)} (room : before.length ≤ maxResponseHeaderCount) :
    parseHeaders before lines = .ok headers ↔
      before.length + lines.length ≤ maxResponseHeaderCount ∧
        ∃ fields, List.Forall₂ HeaderLine lines fields ∧ headers = before ++ fields := by
  induction lines generalizing before with
  | nil =>
      simp only [parseHeaders, Except.ok.injEq, List.length_nil, Nat.add_zero, room, true_and,
        List.forall₂_nil_left_iff, exists_eq_left, List.append_nil]
      exact eq_comm
  | cons line lines ih =>
      rw [List.mem_cons, not_or] at solid
      have visible : line.isEmpty = false := by simpa using Ne.symm solid.1
      simp only [parseHeaders, visible, Bool.false_eq_true, if_false]
      split
      next full =>
        simp only [reduceCtorEq, false_iff, not_and]
        intro fits
        rw [List.length_cons] at fits
        omega
      next free =>
        have room' (header : Text × Text) : (before ++ [header]).length ≤ maxResponseHeaderCount := by
          rw [List.length_append, List.length_singleton]
          omega
        cases parsed : parseHeaderLine line with
        | error e =>
            simp only [reduceCtorEq, false_iff, not_and, not_exists]
            rintro - fields lines' -
            obtain ⟨field, rest, here, -, -⟩ := List.forall₂_cons_left_iff.mp lines'
            rw [parseHeaderLine_ok_iff.mpr here] at parsed
            cases parsed
        | ok header =>
            have count : before.length + 1 + lines.length = before.length + (lines.length + 1) := by
              omega
            rw [ih solid.2 (room' header), List.length_append, List.length_singleton,
              List.length_cons, count]
            refine and_congr_right fun _ => ?_
            constructor
            · rintro ⟨fields, rest, rfl⟩
              exact ⟨header :: fields, .cons (parseHeaderLine_ok_iff.mp parsed) rest, by simp⟩
            · rintro ⟨fields, all, rfl⟩
              obtain ⟨field, rest, here, there, rfl⟩ := List.forall₂_cons_left_iff.mp all
              have same := parseHeaderLine_ok_iff.mpr here
              rw [parsed] at same
              cases same
              exact ⟨rest, there, by simp⟩

/-! ## The head -/

/-- A line end is its two bytes. -/
theorem fromUtf8_crlf {bytes : Bytes} {after : Text}
    (decoded : Utf8.fromUtf8 bytes = some ('\r' :: '\n' :: after)) :
    ∃ back, bytes = 13 :: 10 :: back ∧ Utf8.fromUtf8 back = some after := by
  have small : ∀ c ∈ ['\r', '\n'], c.toNat < 128 := by simp
  exact Utf8.fromUtf8_ascii small decoded

/-- No line of the head is blank: the blank line would have been the end of the head. -/
theorem FirstTerminator.solid {input : Bytes} {position : Nat}
    (found : FirstTerminator input position) {text first : Text} {lines : List Text}
    (decoded : Utf8.fromUtf8 (input.take position) = some text)
    (split : Text.splitCrlf text = first :: lines) : [] ∉ lines := by
  intro blank
  have bound := found.here.bound
  have size : (input.take position).length = position := List.length_take_of_le (by omega)
  rcases Text.splitCrlf_blank split blank with ⟨before, after, rfl⟩ | ⟨before, rfl⟩
  · rw [List.append_assoc] at decoded
    obtain ⟨front, back, head, rest⟩ := Utf8.fromUtf8_append decoded
    obtain ⟨middle, rfl, second⟩ := fromUtf8_crlf rest
    obtain ⟨behind, rfl, -⟩ := fromUtf8_crlf second
    have here : TerminatorAt (input.take position) front.length := by
      rw [TerminatorAt, head, List.drop_left]
      rfl
    obtain ⟨earlier, inside⟩ := terminatorAt_take.mp here
    exact found.first front.length (by omega) earlier
  · obtain ⟨front, back, head, rest⟩ := Utf8.fromUtf8_append decoded
    obtain ⟨back, rfl, none⟩ := fromUtf8_crlf rest
    obtain rfl := Utf8.fromUtf8_nil none
    -- the line end in front of the terminator makes an earlier one
    have next : (input.drop position).take 2 = [13, 10] := by
      have here := congrArg (List.take 2) found.here
      rwa [List.take_take] at here
    have whole : input = front ++ ([13, 10] ++ input.drop position) := by
      rw [← List.append_assoc, ← head, List.take_append_drop]
    have earlier : TerminatorAt input front.length := by
      rw [TerminatorAt, whole, List.drop_left]
      simpa using next
    have length := congrArg List.length head
    rw [size, List.length_append] at length
    exact found.first front.length (by rw [length]; simp) earlier

/-- How the code reads a status. -/
def ReadAsU16 (code : Text) (status : Nat) : Prop := Text.parseU16 code = some status

theorem parseHead_ok_iff {input : Bytes} {position : Nat} (found : FirstTerminator input position)
    {bodyStart : Nat} {response : Http1Response} :
    parseHead (input.take position) bodyStart = .ok response ↔
      ∃ status reason headers, ResponseHead ReadAsU16 (input.take position) status reason headers ∧
        response = ⟨"HTTP/1.1".toList, status, reason, headers, bodyStart⟩ := by
  constructor
  · intro parsed
    simp only [parseHead] at parsed
    cases decoded : Utf8.fromUtf8 (input.take position) with
    | none => simp only [decoded] at parsed; cases parsed
    | some text =>
        simp only [decoded] at parsed
        cases split : Text.splitCrlf text with
        | nil => exact absurd split (Text.splitCrlf_ne_nil text)
        | cons statusLine lines =>
            simp only [split] at parsed
            cases first : parseStatusLine statusLine with
            | error e => simp only [first] at parsed; cases parsed
            | ok pieces =>
                obtain ⟨version, status, reason⟩ := pieces
                simp only [first] at parsed
                cases fields : parseHeaders [] lines with
                | error e => simp only [fields] at parsed; cases parsed
                | ok headers =>
                    simp only [fields] at parsed
                    cases parsed
                    obtain ⟨rfl, code, statusLine, number⟩ := parseStatusLine_ok_iff.mp first
                    obtain ⟨count, _, lines', rfl⟩ :=
                      (parseHeaders_ok_iff (found.solid decoded split) (Nat.zero_le _)).mp fields
                    rw [List.length_nil, Nat.zero_add] at count
                    exact ⟨status, reason, headers,
                      .mk decoded split statusLine number count lines', rfl⟩
  · rintro ⟨status, reason, headers, ⟨decoded, split, statusLine, number, count, fields⟩, rfl⟩
    have first := parseStatusLine_ok_iff.mpr ⟨rfl, _, statusLine, number⟩
    have all := (parseHeaders_ok_iff (found.solid decoded split) (Nat.zero_le _)).mpr
      ⟨by rwa [List.length_nil, Nat.zero_add], headers, fields, rfl⟩
    simp only [parseHead, decoded, split, first, all, List.nil_append]

/-! ## What is accepted -/

/-- A number that `u16` parsing takes although it is not three digits. -/
def OddStatus (code : Text) (status : Nat) : Prop :=
  ReadAsU16 code status ∧ ∀ status', ¬ ThreeDigits code status'

/-- The answer for an input is the one that the grammar asks for. -/
structure Specified (input : Bytes) : Prop where
  unended : (∀ position, TerminatorAt input position → maxResponseHeaderBytes < position + 4) →
    parseResponse input =
      if input.length ≤ maxResponseHeaderBytes then .ok none
      else .error (.headersTooLarge maxResponseHeaderBytes)
  stable (position : Nat) : FirstTerminator input position →
    ∀ other, other.take (position + 4) = input.take (position + 4) →
      parseResponse other = parseResponse input
  accepts (position : Nat) : FirstTerminator input position →
    ((∃ result, parseResponse input = .ok result) ↔
      ∃ status reason headers, ResponseHead ThreeDigits (input.take position) status reason headers)
  carries (position : Nat) : FirstTerminator input position →
    ∀ status reason headers, ResponseHead ThreeDigits (input.take position) status reason headers →
      parseResponse input = .ok (some
        (⟨"HTTP/1.1".toList, status, reason, headers, position + 4⟩, position + 4))

theorem parseU16_threeDigits {code : Text} {status : Nat} (digits : ThreeDigits code status) :
    ReadAsU16 code status := by
  obtain ⟨a, a10, b, b10, c, c10, rfl, rfl⟩ := digits
  have all : ∀ a < 10, ∀ b < 10, ∀ c < 10,
      Text.parseU16 [Nat.digitChar a, Nat.digitChar b, Nat.digitChar c] =
        some (100 * a + 10 * b + c) := by
    decide +kernel
  exact all a a10 b b10 c c10

theorem ResponseHead.mono {written written' : Text → Nat → Prop} {head : Bytes} {status : Nat}
    {reason : Text} {headers : List (Text × Text)}
    (response : ResponseHead written head status reason headers)
    (also : ∀ code, written code status → written' code status) :
    ResponseHead written' head status reason headers := by
  obtain ⟨decoded, split, first, code, count, fields⟩ := response
  exact ⟨decoded, split, first, also _ code, count, fields⟩

/-- A head with an odd status has no regular one. -/
theorem ResponseHead.odd_not_regular {head : Bytes} {status status' : Nat} {reason reason' : Text}
    {headers headers' : List (Text × Text)}
    (odd : ResponseHead OddStatus head status reason headers)
    (regular : ResponseHead ThreeDigits head status' reason' headers') : False := by
  obtain ⟨decoded, split, first, code, -, -⟩ := odd
  obtain ⟨decoded', split', first', code', -, -⟩ := regular
  rw [decoded, Option.some.injEq] at decoded'
  subst decoded'
  rw [split, List.cons.injEq] at split'
  obtain ⟨rfl, rfl⟩ := split'
  obtain ⟨rfl, -⟩ := first.unique first'
  exact code.2 _ code'

theorem parseResponse_found {input : Bytes} {position : Nat}
    (found : FirstTerminator input position) :
    parseResponse input =
      match parseHead (input.take position) (position + 4) with
      | .error e => .error e
      | .ok response => .ok (some (response, position + 4)) := by
  rw [parseResponse, findWindow_some_iff.mpr found] <;> rfl

theorem parseResponse_ok_iff {input : Bytes} {position : Nat}
    (found : FirstTerminator input position) {result : Option (Http1Response × Nat)} :
    parseResponse input = .ok result ↔
      ∃ status reason headers, ResponseHead ReadAsU16 (input.take position) status reason headers ∧
        result = some (⟨"HTTP/1.1".toList, status, reason, headers, position + 4⟩, position + 4) := by
  rw [parseResponse_found found]
  cases parsed : parseHead (input.take position) (position + 4) with
  | error e =>
      simp only [reduceCtorEq, false_iff, not_exists]
      rintro status reason headers ⟨head, -⟩
      rw [(parseHead_ok_iff found).mpr ⟨status, reason, headers, head, rfl⟩] at parsed
      cases parsed
  | ok response =>
      obtain ⟨status, reason, headers, head, rfl⟩ := (parseHead_ok_iff found).mp parsed
      simp only [Except.ok.injEq]
      constructor
      · rintro rfl
        exact ⟨status, reason, headers, head, rfl⟩
      · rintro ⟨status', reason', headers', head', rfl⟩
        have same := (@parseHead_ok_iff input position found (position + 4) _).mpr
          ⟨status', reason', headers', head', rfl⟩
        rw [parsed, Except.ok.injEq] at same
        rw [same]

/-- The first terminator stays the first one when only bytes behind it change. -/
theorem FirstTerminator.transfer {input other : Bytes} {position : Nat}
    (found : FirstTerminator input position)
    (same : other.take (position + 4) = input.take (position + 4)) :
    FirstTerminator other position := by
  have agree (earlier : Nat) (inside : earlier + 4 ≤ position + 4) :
      TerminatorAt other earlier ↔ TerminatorAt input earlier := by
    have left := @terminatorAt_take other (position + 4) earlier
    have right := @terminatorAt_take input (position + 4) earlier
    rw [same, right] at left
    simpa [inside] using left.symm
  constructor
  case here => exact (agree position le_rfl).mpr found.here
  case first =>
    intro earlier smaller here
    exact found.first earlier smaller ((agree earlier (by omega)).mp here)
  case within => exact found.within

/-- The answer for an input is the one that the grammar asks for, unless its head carries a status
that is not three digits and yet parses as a `u16`. -/
theorem parseResponse_specified_iff (input : Bytes) :
    Specified input ↔ ∀ position, FirstTerminator input position → ∀ status reason headers,
      ¬ ResponseHead OddStatus (input.take position) status reason headers := by
  constructor
  · intro specified position found status reason headers odd
    have accepted := (parseResponse_ok_iff found).mpr
      ⟨status, reason, headers, odd.mono fun _ => And.left, rfl⟩
    obtain ⟨status', reason', headers', regular⟩ :=
      (specified.accepts position found).mp ⟨_, accepted⟩
    exact odd.odd_not_regular regular
  · intro noneOdd
    have carries (position : Nat) (found : FirstTerminator input position) (status : Nat)
        (reason : Text) (headers : List (Text × Text))
        (head : ResponseHead ThreeDigits (input.take position) status reason headers) :=
      (parseResponse_ok_iff found).mpr
        ⟨status, reason, headers, head.mono fun _ => parseU16_threeDigits, rfl⟩
    constructor
    case unended =>
      intro outside
      rw [parseResponse, findWindow_none_iff.mpr outside]
      by_cases long : maxResponseHeaderBytes < input.length
      · simp only [if_pos long, if_neg (Nat.not_le.mpr long)]
      · simp only [if_neg long, if_pos (Nat.not_lt.mp long)]
    case stable =>
      intro position found other same
      have head : other.take position = input.take position := by
        have := congrArg (List.take position) same
        simpa [List.take_take] using this
      rw [parseResponse_found (found.transfer same), parseResponse_found found, head]
    case accepts =>
      intro position found
      constructor
      · rintro ⟨result, accepted⟩
        obtain ⟨status, reason, headers, head, -⟩ := (parseResponse_ok_iff found).mp accepted
        by_contra none
        push Not at none
        apply noneOdd position found status reason headers
        obtain ⟨decoded, split, first, code, count, fields⟩ := head
        refine ⟨decoded, split, first, ⟨code, fun status' digits => ?_⟩, count, fields⟩
        exact none status' reason headers ⟨decoded, split, first, digits, count, fields⟩
      · rintro ⟨status, reason, headers, head⟩
        exact ⟨_, carries position found status reason headers head⟩
    case carries => exact carries

/-- A status with a sign. -/
def signedStatus : Bytes := Text.utf8 "HTTP/1.1 +101 OK\r\n\r\n".toList

theorem signedStatus_accepted :
    parseResponse signedStatus =
        .ok (some (⟨"HTTP/1.1".toList, 101, "OK".toList, [], 20⟩, 20)) ∧
      ¬ Specified signedStatus := by
  have accepted : parseResponse signedStatus =
      .ok (some (⟨"HTTP/1.1".toList, 101, "OK".toList, [], 20⟩, 20)) := by
    decide +kernel
  have found : FirstTerminator signedStatus 16 := findWindow_some_iff.mp (by decide +kernel)
  have odd : ResponseHead OddStatus (signedStatus.take 16) 101 "OK".toList [] := by
    have decoded : Utf8.fromUtf8 (signedStatus.take 16) = some "HTTP/1.1 +101 OK".toList := by
      decide +kernel
    have split : Text.splitCrlf "HTTP/1.1 +101 OK".toList = ["HTTP/1.1 +101 OK".toList] := by
      decide +kernel
    have first := @StatusLine.reasoned "+101".toList (by decide) "OK".toList
    refine .mk decoded split first ?_ (Nat.zero_le _) .nil
    constructor
    · rfl
    · rintro status ⟨a, -, b, -, c, -, code, -⟩
      exact absurd (congrArg List.length code) (by simp)
  refine ⟨accepted, fun specified => ?_⟩
  obtain ⟨status, reason, headers, regular⟩ := (specified.accepts 16 found).mp ⟨_, accepted⟩
  exact odd.odd_not_regular regular

end Talaris.Http
