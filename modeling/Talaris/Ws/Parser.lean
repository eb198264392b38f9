import Talaris.Ws.Frame

/-!
# The streaming frame parser

`feedOne` consumes a slice and yields at most one event.  Between calls it holds
up to fourteen header bytes or the number of payload bytes still due.  Payload
bytes themselves are handed through.
-/

namespace Talaris.Ws

inductive FrameEvent where
  | frameStart (header : FrameHeader)
  | payloadChunk (bytes : Bytes)
  | frameEnd
  deriving DecidableEq, Repr

inductive FeedOutcome where
  | needMore (consumed : Nat)
  | event (consumed : Nat) (event : FrameEvent)
  deriving DecidableEq, Repr

inductive ParserState where
  | idle
  /-- The header bytes filled in so far. -/
  | headerPartial (filled : Bytes)
  | payload (remaining : Nat)
  deriving DecidableEq, Repr

namespace ParserState

def isIdle : ParserState → Bool
  | idle => true
  | headerPartial _ | payload _ => false

/-- Steps to the end of the frame that need no further byte. -/
def rank : ParserState → Nat
  | idle => 0
  | payload _ => 1
  | headerPartial _ => 2

end ParserState

/-- Bytes of header the parser needs before it can go on. -/
def minNeeded (filled : Bytes) : Nat :=
  match filled with
  | _ :: b1 :: _ => headerSizeFromByte1 b1
  | _ => 2

/-- A header that is filled up to `minNeeded`. -/
def parseFilled (filled : Bytes) (consumed : Nat) :
    ParserState × Except FrameError FeedOutcome :=
  match parseHeader filled with
  | .error e => (.headerPartial filled, .error e)
  -- the source has unreachable! here, see `parseHeader_none_length`
  | .ok none => (.headerPartial filled, .ok (.needMore consumed))
  | .ok (some (header, _)) =>
      if header.mask.isSome then (.headerPartial filled, .error .serverSentMaskedFrame)
      else (.payload header.payloadLen, .ok (.event consumed (.frameStart header)))

/-- The `HeaderPartial` rounds of the loop: two bytes first, then the size byte 1 announces. -/
def feedHeader (filled bytes : Bytes) (consumed : Nat) :
    ParserState × Except FrameError FeedOutcome :=
  if minNeeded filled ≤ filled.length then parseFilled filled consumed
  else
    let want := minNeeded filled - filled.length
    let take := min want bytes.length
    if take = 0 then (.headerPartial filled, .ok (.needMore consumed))
    else feedHeader (filled ++ bytes.take take) (bytes.drop take) (consumed + take)
  termination_by bytes.length
  decreasing_by
    simp only [List.length_drop]
    omega

/-- Push a slice, get at most one event. -/
def feedOne (parser : ParserState) (bytes : Bytes) :
    ParserState × Except FrameError FeedOutcome :=
  match parser with
  | .idle => feedHeader [] bytes 0
  | .headerPartial filled => feedHeader filled bytes 0
  | .payload remaining =>
      if remaining == 0 then (.idle, .ok (.event 0 .frameEnd))
      else if bytes.isEmpty then (.payload remaining, .ok (.needMore 0))
      else
        let take := min bytes.length remaining
        (.payload (remaining - take), .ok (.event take (.payloadChunk (bytes.take take))))

/-! ## What one call does

`buffered` is everything of the current header seen so far, in the parser or in the
slice. -/

/-- Byte 1 is there, and all the bytes it announces. -/
def HeaderComplete (buffered : Bytes) : Prop := minNeeded buffered ≤ buffered.length

instance (buffered : Bytes) : Decidable (HeaderComplete buffered) :=
  inferInstanceAs (Decidable (minNeeded buffered ≤ buffered.length))

theorem minNeeded_ge (filled : Bytes) : 2 ≤ minNeeded filled := by
  match filled with
  | [] => exact Nat.le_refl 2
  | [_] => exact Nat.le_refl 2
  | _ :: b1 :: _ => exact headerSizeFromByte1_ge b1

theorem minNeeded_append {filled : Bytes} (long : 2 ≤ filled.length) (more : Bytes) :
    minNeeded (filled ++ more) = minNeeded filled := by
  match filled, long with
  | _ :: _ :: _, _ => rfl

theorem minNeeded_le_append (filled more : Bytes) :
    minNeeded filled ≤ minNeeded (filled ++ more) := by
  match filled with
  | [] => exact minNeeded_ge more
  | [b0] => exact minNeeded_ge ([b0] ++ more)
  | _ :: _ :: _ => exact Nat.le_refl _

theorem HeaderComplete.append {buffered : Bytes} (complete : HeaderComplete buffered)
    (more : Bytes) : HeaderComplete (buffered ++ more) := by
  have long : 2 ≤ buffered.length := Nat.le_trans (minNeeded_ge buffered) complete
  unfold HeaderComplete at complete ⊢
  rw [minNeeded_append long, List.length_append]
  omega

/-- The header rounds depend on the concatenation only, not on what came in which call. -/
theorem feedHeader_eq (filled bytes : Bytes) (consumed : Nat)
    (fits : filled.length ≤ minNeeded (filled ++ bytes)) :
    feedHeader filled bytes consumed =
      if HeaderComplete (filled ++ bytes) then
        parseFilled ((filled ++ bytes).take (minNeeded (filled ++ bytes)))
          (consumed + (minNeeded (filled ++ bytes) - filled.length))
      else (.headerPartial (filled ++ bytes), .ok (.needMore (consumed + bytes.length))) := by
  fun_induction feedHeader filled bytes consumed with
  | case1 filled bytes consumed full =>
      have long : 2 ≤ filled.length := Nat.le_trans (minNeeded_ge filled) full
      rw [minNeeded_append long] at fits ⊢
      have size : minNeeded filled = filled.length := by omega
      have complete : HeaderComplete (filled ++ bytes) := HeaderComplete.append full bytes
      rw [if_pos complete, size, List.take_left, Nat.sub_self, Nat.add_zero]
  | case2 filled bytes consumed short want take none =>
      have empty : bytes = [] := by
        apply List.eq_nil_of_length_eq_zero
        omega
      subst empty
      have incomplete : ¬ HeaderComplete (filled ++ []) := by
        rw [List.append_nil]
        exact short
      rw [if_neg incomplete]
      simp
  | case3 filled bytes consumed short want take some ih =>
      have same : filled ++ bytes.take take ++ bytes.drop take = filled ++ bytes := by
        rw [List.append_assoc, List.take_append_drop]
      have grown := minNeeded_le_append filled bytes
      rw [same] at ih
      have takes : (filled ++ bytes.take take).length = filled.length + take := by
        simp only [List.length_append, List.length_take]
        omega
      have fits' : (filled ++ bytes.take take).length ≤ minNeeded (filled ++ bytes) := by
        rw [takes]
        omega
      have headerRest : consumed + take + (minNeeded (filled ++ bytes) - (filled.length + take)) =
          consumed + (minNeeded (filled ++ bytes) - filled.length) := by
        omega
      have sliceRest : consumed + take + (bytes.length - take) = consumed + bytes.length := by
        omega
      rw [ih fits', takes, List.length_drop, headerRest, sliceRest]

theorem parseHeader_ne_none {buffered : Bytes} (complete : HeaderComplete buffered) :
    parseHeader buffered ≠ .ok none := by
  intro short
  match buffered with
  | [] => exact absurd complete (by decide)
  | [b] => exact absurd complete (by simp [HeaderComplete, minNeeded])
  | b0 :: b1 :: rest =>
      have missing := parseHeader_none_length short
      simp only [HeaderComplete, minNeeded, List.length_cons] at complete
      omega

/-- The header proper decides, not what follows it in the buffer. -/
theorem parseHeader_take {buffered : Bytes} (complete : HeaderComplete buffered) :
    parseHeader (buffered.take (minNeeded buffered)) = parseHeader buffered := by
  have long : 2 ≤ (buffered.take (minNeeded buffered)).length := by
    have := minNeeded_ge buffered
    simp only [List.length_take, HeaderComplete] at complete ⊢
    omega
  have split := List.take_append_drop (minNeeded buffered) buffered
  have same : minNeeded (buffered.take (minNeeded buffered)) = minNeeded buffered := by
    rw [← minNeeded_append long (buffered.drop (minNeeded buffered)), split]
  have full : HeaderComplete (buffered.take (minNeeded buffered)) := by
    simp only [HeaderComplete, same, List.length_take] at complete ⊢
    omega
  rw [← parseHeader_append (parseHeader_ne_none full) (buffered.drop (minNeeded buffered)), split]

theorem minNeeded_take {buffered : Bytes} (complete : HeaderComplete buffered) :
    (buffered.take (minNeeded buffered)).length = minNeeded buffered := by
  rw [List.length_take]
  exact Nat.min_eq_left complete

theorem parseHeader_some_minNeeded {buffered : Bytes} {header : FrameHeader} {size : Nat}
    (parsed : parseHeader buffered = .ok (some (header, size))) :
    size = minNeeded buffered ∧ size ≤ buffered.length := by
  match buffered with
  | [] => cases parsed
  | [_] => cases parsed
  | b0 :: b1 :: rest =>
      obtain ⟨sizeEq, bound, -⟩ := parseHeader_some_size parsed
      exact ⟨sizeEq, bound⟩

theorem parseFilled_event {filled : Bytes} {consumed taken : Nat} {parser : ParserState}
    {event : FrameEvent}
    (fed : parseFilled filled consumed = (parser, .ok (.event taken event))) :
    taken = consumed ∧ ∃ remaining, parser = .payload remaining := by
  simp only [parseFilled] at fed
  split at fed
  next => simp at fed
  next => simp at fed
  next header size parsed =>
    split at fed
    next => simp at fed
    next =>
      simp only [Prod.mk.injEq, Except.ok.injEq, FeedOutcome.event.injEq] at fed
      exact ⟨fed.2.1.symm, _, fed.1.symm⟩

theorem feedHeader_event {filled bytes : Bytes} {consumed taken : Nat} {parser : ParserState}
    {event : FrameEvent}
    (fed : feedHeader filled bytes consumed = (parser, .ok (.event taken event))) :
    ∃ remaining, parser = .payload remaining := by
  fun_induction feedHeader filled bytes consumed with
  | case1 filled bytes consumed full => exact (parseFilled_event fed).2
  | case2 => simp at fed
  | case3 filled bytes consumed short want take some ih => exact ih fed

/-- Every event brings the end of the buffered bytes nearer. -/
theorem feedOne_event_lt {parser next : ParserState} {bytes : Bytes} {consumed : Nat}
    {event : FrameEvent} (fed : feedOne parser bytes = (next, .ok (.event consumed event))) :
    3 * (bytes.length - consumed) + next.rank < 3 * bytes.length + parser.rank := by
  cases parser with
  | idle =>
      simp only [feedOne] at fed
      obtain ⟨remaining, rfl⟩ := feedHeader_event fed
      have needed := minNeeded_ge bytes
      rw [feedHeader_eq [] bytes 0 (Nat.zero_le _), List.nil_append] at fed
      by_cases complete : HeaderComplete bytes
      · rw [if_pos complete] at fed
        obtain ⟨taken, -⟩ := parseFilled_event fed
        unfold HeaderComplete at complete
        simp only [List.length_nil] at taken
        simp only [ParserState.rank]
        omega
      · rw [if_neg complete] at fed
        simp at fed
  | headerPartial filled =>
      simp only [feedOne] at fed
      obtain ⟨remaining, rfl⟩ := feedHeader_event fed
      simp only [ParserState.rank]
      omega
  | payload remaining =>
      simp only [feedOne] at fed
      split at fed
      next =>
        simp only [Prod.mk.injEq, Except.ok.injEq, FeedOutcome.event.injEq] at fed
        obtain ⟨rfl, rfl, rfl⟩ := fed
        simp only [ParserState.rank]
        omega
      next some =>
        split at fed
        next => simp at fed
        next nonempty =>
          simp only [Prod.mk.injEq, Except.ok.injEq, FeedOutcome.event.injEq] at fed
          obtain ⟨rfl, rfl, rfl⟩ := fed
          have : bytes.length ≠ 0 := by simpa using nonempty
          have : remaining ≠ 0 := by simpa using some
          simp only [ParserState.rank]
          omega

end Talaris.Ws
