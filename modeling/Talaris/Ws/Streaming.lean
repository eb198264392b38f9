import Talaris.Ws.Parser

/-!
# The streaming parser reads frame after frame

`batch` reads a byte string in one go: header, payload, next header, until bytes run
out or a header is refused.  `feedSlices` cuts the same bytes into calls of `feedOne`.
Apart from where payloads are cut the two yield the same events and stop with the same
error (`feedSlices_batch`).
-/

namespace Talaris.Ws

/-! ## Reading at once -/

/-- A frame, with as much of its payload as there is. -/
structure FrameRead where
  header : FrameHeader
  payload : Bytes
  deriving DecidableEq, Repr

/-- The events for `remaining` bytes of payload, of which `payload` is there. -/
def payloadEvents (remaining : Nat) (payload : Bytes) : List FrameEvent :=
  (if payload.isEmpty then [] else [.payloadChunk payload]) ++
    if payload.length < remaining then [] else [.frameEnd]

/-- The events of a frame, its payload in one piece. -/
def FrameRead.events (frame : FrameRead) : List FrameEvent :=
  .frameStart frame.header :: payloadEvents frame.header.payloadLen frame.payload

/-- The frames of a byte string, and the error that ended them. -/
structure Batch where
  frames : List FrameRead
  error : Option FrameError
  deriving DecidableEq, Repr

def Batch.events (read : Batch) : List FrameEvent := read.frames.flatMap FrameRead.events

/-- Each header is parsed from the bytes that its byte 1 announces. -/
def batch (bytes : Bytes) : Batch :=
  if HeaderComplete bytes then
    match parseHeader (bytes.take (minNeeded bytes)) with
    | .error e => ⟨[], some e⟩
    -- never the answer to a complete header, see `parseHeader_ne_none`
    | .ok none => ⟨[], none⟩
    | .ok (some (header, _)) =>
        if header.mask.isSome then ⟨[], some .serverSentMaskedFrame⟩
        else
          let body := bytes.drop (minNeeded bytes)
          let frame : FrameRead := ⟨header, body.take header.payloadLen⟩
          if body.length < header.payloadLen then ⟨[frame], none⟩
          else
            let rest := batch (body.drop header.payloadLen)
            ⟨frame :: rest.frames, rest.error⟩
  else ⟨[], none⟩
  termination_by bytes.length
  decreasing_by
    have := minNeeded_ge bytes
    simp only [HeaderComplete] at *
    simp only [List.length_drop]
    omega

/-! ## Reading in slices -/

/-- What the calls on a slice return together. -/
structure Fed where
  parser : ParserState
  /-- The events, each with the number of bytes its call consumed. -/
  trace : List (Nat × FrameEvent)
  /-- Bytes consumed by all the calls that returned. -/
  consumed : Nat
  error : Option FrameError

def Fed.events (fed : Fed) : List FrameEvent := fed.trace.map Prod.snd

/-- Call `feedOne` on what is left of a slice until it needs more or fails. -/
def feedSlice (parser : ParserState) (bytes : Bytes) : Fed :=
  match _fed : feedOne parser bytes with
  | (next, .error e) => ⟨next, [], 0, some e⟩
  | (next, .ok (.needMore consumed)) => ⟨next, [], consumed, none⟩
  | (next, .ok (.event consumed event)) =>
      let rest := feedSlice next (bytes.drop consumed)
      ⟨rest.parser, (consumed, event) :: rest.trace, consumed + rest.consumed, rest.error⟩
  termination_by 3 * bytes.length + parser.rank
  decreasing_by
    rw [List.length_drop]
    exact feedOne_event_lt _fed

/-- Slice after slice, each behind the bytes the ones before have left. -/
def feedSlices (parser : ParserState) (left : Bytes) : List Bytes → Fed
  | [] => ⟨parser, [], 0, none⟩
  | slice :: slices =>
      let fed := feedSlice parser (left ++ slice)
      if fed.error.isSome then fed
      else
        let rest := feedSlices fed.parser ((left ++ slice).drop fed.consumed) slices
        ⟨rest.parser, fed.trace ++ rest.trace, fed.consumed + rest.consumed, rest.error⟩

/-- An event in front of others, a payload chunk joined to the one that follows it. -/
def FrameEvent.before : FrameEvent → List FrameEvent → List FrameEvent
  | payloadChunk bytes, payloadChunk more :: rest => payloadChunk (bytes ++ more) :: rest
  | event, rest => event :: rest

/-- Adjacent payload chunks made one. -/
def joinChunks (events : List FrameEvent) : List FrameEvent := events.foldr FrameEvent.before []

/-! ## What is still to come -/

/-- What reading at once yields from where a parser stands. -/
def ahead (parser : ParserState) (bytes : Bytes) : List FrameEvent × Option FrameError :=
  match parser with
  | .idle => ((batch bytes).events, (batch bytes).error)
  | .headerPartial filled => ((batch (filled ++ bytes)).events, (batch (filled ++ bytes)).error)
  | .payload remaining =>
      (payloadEvents remaining (bytes.take remaining) ++
          (if bytes.length < remaining then [] else (batch (bytes.drop remaining)).events),
        if bytes.length < remaining then none else (batch (bytes.drop remaining)).error)

theorem ahead_headerPartial (filled bytes : Bytes) :
    ahead (.headerPartial filled) bytes = ahead .idle (filled ++ bytes) := rfl

/-- Between calls the parser holds no complete header. -/
def ParserState.Undecided : ParserState → Prop
  | headerPartial filled => ¬ HeaderComplete filled
  | idle | payload _ => True

theorem batch_incomplete {bytes : Bytes} (incomplete : ¬ HeaderComplete bytes) :
    batch bytes = ⟨[], none⟩ := by
  rw [batch, if_neg incomplete]

theorem batch_refused {bytes : Bytes} (complete : HeaderComplete bytes) {e : FrameError}
    (refused : parseHeader (bytes.take (minNeeded bytes)) = .error e) :
    batch bytes = ⟨[], some e⟩ := by
  rw [batch, if_pos complete, refused]

theorem batch_masked {bytes : Bytes} (complete : HeaderComplete bytes) {header : FrameHeader}
    {size : Nat} (parsed : parseHeader (bytes.take (minNeeded bytes)) = .ok (some (header, size)))
    (masked : header.mask.isSome = true) : batch bytes = ⟨[], some .serverSentMaskedFrame⟩ := by
  rw [batch, if_pos complete, parsed]
  exact if_pos masked

/-- Behind an accepted header comes its payload. -/
theorem batch_accepted {bytes : Bytes} (complete : HeaderComplete bytes) {header : FrameHeader}
    {size : Nat} (parsed : parseHeader (bytes.take (minNeeded bytes)) = .ok (some (header, size)))
    (unmasked : header.mask.isSome = false) :
    let next := ahead (.payload header.payloadLen) (bytes.drop (minNeeded bytes))
    (batch bytes).events = .frameStart header :: next.1 ∧ (batch bytes).error = next.2 := by
  rw [batch, if_pos complete, parsed]
  simp only [unmasked, Bool.false_eq_true, if_false, ahead]
  by_cases short : (bytes.drop (minNeeded bytes)).length < header.payloadLen
  · simp only [if_pos short]
    constructor
    · simp [Batch.events, FrameRead.events]
    · trivial
  · simp only [if_neg short]
    constructor
    · simp [Batch.events, FrameRead.events]
    · trivial

/-! ## One call -/

/-- A call that yields an event has read it off what was ahead. -/
structure FeedYields (parser : ParserState) (bytes : Bytes) (next : ParserState) (consumed : Nat)
    (event : FrameEvent) : Prop where
  undecided : next.Undecided
  within : consumed ≤ bytes.length
  /-- Only the end of a frame consumes nothing. -/
  progress : 0 < consumed ∨ parser = .payload 0 ∧ next = .idle
  ahead (more : Bytes) : ahead parser (bytes ++ more) =
    (event.before (Talaris.Ws.ahead next (bytes.drop consumed ++ more)).1,
      (Talaris.Ws.ahead next (bytes.drop consumed ++ more)).2)

/-- A call that needs more has taken in the whole slice. -/
structure FeedWaits (parser : ParserState) (bytes : Bytes) (next : ParserState) (consumed : Nat) :
    Prop where
  undecided : next.Undecided
  whole : consumed = bytes.length
  ahead (more : Bytes) : ahead parser (bytes ++ more) = Talaris.Ws.ahead next more
  nothing : Talaris.Ws.ahead next [] = ([], none)

/-- The header rounds, by what the filled and the new bytes hold together. -/
theorem feedHeader_cases {filled bytes : Bytes} (undecided : ¬ HeaderComplete filled) :
    (¬ HeaderComplete (filled ++ bytes) ∧
      feedHeader filled bytes 0 =
        (.headerPartial (filled ++ bytes), .ok (.needMore bytes.length))) ∨
    (HeaderComplete (filled ++ bytes) ∧
      feedHeader filled bytes 0 =
        parseFilled ((filled ++ bytes).take (minNeeded (filled ++ bytes)))
          (minNeeded (filled ++ bytes) - filled.length)) := by
  have fits : filled.length ≤ minNeeded (filled ++ bytes) := by
    have grown := minNeeded_le_append filled bytes
    unfold HeaderComplete at undecided
    omega
  have rounds := feedHeader_eq filled bytes 0 fits
  by_cases complete : HeaderComplete (filled ++ bytes)
  · right
    rw [if_pos complete, Nat.zero_add] at rounds
    exact ⟨complete, rounds⟩
  · left
    rw [if_neg complete, Nat.zero_add] at rounds
    exact ⟨complete, rounds⟩

/-- What a header that has just been filled makes of the rest. -/
theorem parseFilled_cases {buffered : Bytes} (complete : HeaderComplete buffered)
    (consumed : Nat) :
    let called := parseFilled (buffered.take (minNeeded buffered)) consumed
    (∃ header, called = (.payload header.payloadLen, .ok (.event consumed (.frameStart header))) ∧
      ∀ more,
        let next := ahead (.payload header.payloadLen) (buffered.drop (minNeeded buffered) ++ more)
        ahead .idle (buffered ++ more) = (.frameStart header :: next.1, next.2)) ∨
    ∃ parser e, called = (parser, .error e) ∧ ∀ more, ahead .idle (buffered ++ more) = ([], some e) := by
  have long : 2 ≤ buffered.length := Nat.le_trans (minNeeded_ge buffered) complete
  have longer (more : Bytes) : HeaderComplete (buffered ++ more) := complete.append more
  have headerBytes (more : Bytes) :
      (buffered ++ more).take (minNeeded (buffered ++ more)) =
        buffered.take (minNeeded buffered) := by
    rw [minNeeded_append long, List.take_append_of_le_length complete]
  cases parsed : parseHeader (buffered.take (minNeeded buffered)) with
  | error e =>
      right
      refine ⟨_, e, by rw [parseFilled, parsed], fun more => ?_⟩
      rw [ahead, batch_refused (longer more) (by rw [headerBytes, parsed])]
      rfl
  | ok header =>
      cases header with
      | none => exact absurd (parseHeader_take complete ▸ parsed) (parseHeader_ne_none complete)
      | some header =>
          obtain ⟨header, size⟩ := header
          cases masked : header.mask.isSome with
          | true =>
              right
              refine ⟨.headerPartial (buffered.take (minNeeded buffered)), .serverSentMaskedFrame, ?_,
                fun more => ?_⟩
              · rw [parseFilled, parsed]
                exact if_pos masked
              · rw [ahead, batch_masked (longer more) (by rw [headerBytes, parsed]) masked]
                rfl
          | false =>
              left
              refine ⟨header, ?_, fun more => ?_⟩
              · rw [parseFilled, parsed]
                simp only [masked, Bool.false_eq_true, if_false]
              · obtain ⟨events, error⟩ := batch_accepted (longer more)
                  (by rw [headerBytes, parsed]) masked
                rw [minNeeded_append long, List.drop_append_of_le_length complete] at events error
                rw [ahead, events, error]

theorem feedHeader_yields {filled bytes : Bytes} {next : ParserState} {consumed : Nat}
    {event : FrameEvent} (undecided : ¬ HeaderComplete filled)
    (called : feedHeader filled bytes 0 = (next, .ok (.event consumed event))) :
    FeedYields (.headerPartial filled) bytes next consumed event := by
  rcases @feedHeader_cases filled bytes undecided with ⟨-, waits⟩ | ⟨complete, parses⟩
  · rw [waits] at called
    cases called
  · rcases parseFilled_cases complete (minNeeded (filled ++ bytes) - filled.length) with
      ⟨header, accepted, reads⟩ | ⟨parser, e, refused, -⟩
    · rw [parses, accepted] at called
      cases called
      have short : filled.length < minNeeded (filled ++ bytes) := by
        have grown := minNeeded_le_append filled bytes
        unfold HeaderComplete at undecided
        omega
      have rest : (filled ++ bytes).drop (minNeeded (filled ++ bytes)) =
          bytes.drop (minNeeded (filled ++ bytes) - filled.length) := by
        rw [List.drop_append, List.drop_eq_nil_of_le (Nat.le_of_lt short), List.nil_append]
      constructor
      case undecided => trivial
      case within =>
        simp only [HeaderComplete, List.length_append] at complete
        omega
      case progress => exact Or.inl (by omega)
      case ahead =>
        intro more
        rw [← rest, ahead_headerPartial, ← List.append_assoc]
        exact reads more
    · rw [parses, refused] at called
      cases called

theorem feedHeader_waits {filled bytes : Bytes} {next : ParserState} {consumed : Nat}
    (undecided : ¬ HeaderComplete filled)
    (called : feedHeader filled bytes 0 = (next, .ok (.needMore consumed))) :
    FeedWaits (.headerPartial filled) bytes next consumed := by
  rcases @feedHeader_cases filled bytes undecided with ⟨incomplete, waits⟩ | ⟨complete, parses⟩
  · rw [waits] at called
    cases called
    constructor
    case undecided => exact incomplete
    case whole => rfl
    case ahead =>
      intro more
      simp only [ahead, List.append_assoc]
    case nothing =>
      simp only [ahead, List.append_nil, batch_incomplete incomplete]
      rfl
  · rcases parseFilled_cases complete (minNeeded (filled ++ bytes) - filled.length) with
      ⟨header, accepted, -⟩ | ⟨parser, e, refused, -⟩
    · rw [parses, accepted] at called
      cases called
    · rw [parses, refused] at called
      cases called

theorem feedHeader_fails {filled bytes : Bytes} {next : ParserState} {e : FrameError}
    (undecided : ¬ HeaderComplete filled)
    (called : feedHeader filled bytes 0 = (next, .error e)) (more : Bytes) :
    ahead (.headerPartial filled) (bytes ++ more) = ([], some e) := by
  rcases @feedHeader_cases filled bytes undecided with ⟨-, waits⟩ | ⟨complete, parses⟩
  · rw [waits] at called
    cases called
  · rcases parseFilled_cases complete (minNeeded (filled ++ bytes) - filled.length) with
      ⟨header, accepted, -⟩ | ⟨parser, e', refused, stops⟩
    · rw [parses, accepted] at called
      cases called
    · rw [parses, refused] at called
      cases called
      rw [ahead_headerPartial, ← List.append_assoc]
      exact stops more

/-- A payload in two pieces. -/
theorem payloadEvents_append {remaining : Nat} {chunk rest : Bytes} (some : chunk ≠ []) :
    payloadEvents remaining (chunk ++ rest) =
      (FrameEvent.payloadChunk chunk).before (payloadEvents (remaining - chunk.length) rest) := by
  have long : (chunk ++ rest).isEmpty = false := by simp [some]
  have same : (chunk ++ rest).length < remaining ↔ rest.length < remaining - chunk.length := by
    rw [List.length_append]
    omega
  simp only [payloadEvents, long, same, Bool.false_eq_true, if_false]
  cases rest with
  | nil =>
      simp only [List.isEmpty_nil, if_true, List.nil_append, List.append_nil]
      split <;> rfl
  | cons b rest => rfl

theorem FrameEvent.before_append (event : FrameEvent) {events : List FrameEvent}
    (some : events ≠ []) (rest : List FrameEvent) :
    event.before (events ++ rest) = event.before events ++ rest := by
  cases events with
  | nil => exact absurd rfl some
  | cons first events => cases event <;> cases first <;> rfl

/-- A chunk taken off the front of a payload. -/
theorem ahead_payload_cut {remaining taken : Nat} {bytes : Bytes} (some : 0 < taken)
    (within : taken ≤ bytes.length) (due : taken ≤ remaining) :
    let next := ahead (.payload (remaining - taken)) (bytes.drop taken)
    ahead (.payload remaining) bytes =
      ((FrameEvent.payloadChunk (bytes.take taken)).before next.1, next.2) := by
  have size : (bytes.take taken).length = taken := List.length_take_of_le within
  have nonempty : bytes.take taken ≠ [] := by
    intro empty
    rw [empty, List.length_nil] at size
    omega
  have pieces : bytes.take remaining =
      bytes.take taken ++ (bytes.drop taken).take (remaining - taken) := by
    rw [← List.take_add, Nat.add_sub_cancel' due]
  have behind : (bytes.drop taken).drop (remaining - taken) = bytes.drop remaining := by
    rw [List.drop_drop, Nat.add_sub_cancel' due]
  have short : (bytes.drop taken).length < remaining - taken ↔ bytes.length < remaining := by
    rw [List.length_drop]
    omega
  simp only [ahead, pieces, payloadEvents_append nonempty, size, short, behind]
  by_cases missing : bytes.length < remaining
  · simp only [if_pos missing, List.append_nil]
  · have ended : payloadEvents (remaining - taken) ((bytes.drop taken).take (remaining - taken)) ≠
        [] := by
      have whole : ¬ ((bytes.drop taken).take (remaining - taken)).length < remaining - taken := by
        rw [List.length_take, List.length_drop]
        omega
      rw [payloadEvents, if_neg whole]
      exact List.append_ne_nil_of_right_ne_nil _ (List.cons_ne_nil _ _)
    simp only [if_neg missing, FrameEvent.before_append _ ended]

theorem feedOne_yields {parser next : ParserState} {bytes : Bytes} {consumed : Nat}
    {event : FrameEvent} (undecided : parser.Undecided)
    (called : feedOne parser bytes = (next, .ok (.event consumed event))) :
    FeedYields parser bytes next consumed event := by
  cases parser with
  | idle =>
      have yields : FeedYields (.headerPartial []) bytes next consumed event :=
        feedHeader_yields (by decide) called
      exact ⟨yields.undecided, yields.within, by simpa using yields.progress, yields.ahead⟩
  | headerPartial filled => exact feedHeader_yields undecided called
  | payload remaining =>
      simp only [feedOne] at called
      split at called
      next ended =>
        cases called
        obtain rfl : remaining = 0 := eq_of_beq ended
        exact ⟨trivial, Nat.zero_le _, .inr ⟨rfl, rfl⟩, fun more => by simp [ahead, payloadEvents, FrameEvent.before]⟩
      next running =>
        split at called
        next => cases called
        next nonempty =>
          cases called
          have some : 0 < min bytes.length remaining := by
            have : bytes.length ≠ 0 := by simpa using nonempty
            have : remaining ≠ 0 := by simpa using running
            omega
          constructor
          case undecided => trivial
          case within => exact Nat.min_le_left _ _
          case progress => exact .inl some
          case ahead =>
            intro more
            have cut := @ahead_payload_cut remaining _ (bytes ++ more) some
              (by rw [List.length_append]; omega) (Nat.min_le_right _ _)
            rwa [List.take_append_of_le_length (Nat.min_le_left _ _),
              List.drop_append_of_le_length (Nat.min_le_left _ _)] at cut

theorem feedOne_waits {parser next : ParserState} {bytes : Bytes} {consumed : Nat}
    (undecided : parser.Undecided)
    (called : feedOne parser bytes = (next, .ok (.needMore consumed))) :
    FeedWaits parser bytes next consumed := by
  cases parser with
  | idle =>
      have waits : FeedWaits (.headerPartial []) bytes next consumed :=
        feedHeader_waits (by decide) called
      exact ⟨waits.undecided, waits.whole, waits.ahead, waits.nothing⟩
  | headerPartial filled => exact feedHeader_waits undecided called
  | payload remaining =>
      simp only [feedOne] at called
      split at called
      next => cases called
      next running =>
        split at called
        next empty =>
          cases called
          obtain rfl : bytes = [] := List.isEmpty_iff.mp empty
          have due : 0 < remaining := Nat.pos_of_ne_zero (by simpa using running)
          exact ⟨trivial, rfl, fun more => rfl, by simp [ahead, payloadEvents, due]⟩
        next => cases called

theorem feedOne_fails {parser next : ParserState} {bytes : Bytes} {e : FrameError}
    (undecided : parser.Undecided) (called : feedOne parser bytes = (next, .error e))
    (more : Bytes) : ahead parser (bytes ++ more) = ([], some e) := by
  cases parser with
  | idle =>
      have undecided : ¬ HeaderComplete [] := by decide
      exact feedHeader_fails undecided called more
  | headerPartial filled => exact feedHeader_fails undecided called more
  | payload remaining =>
      simp only [feedOne] at called
      split at called
      next => cases called
      next =>
        split at called
        next => cases called
        next => cases called

/-! ## Whole runs -/

/-- A run has read what was ahead, and where it did not fail it has used all bytes up. -/
structure Feeds (parser : ParserState) (bytes : Bytes) (fed : Fed) : Prop where
  within : fed.consumed ≤ bytes.length
  progress : fed.trace.IsChain fun before after => 0 < before.1 ∨ 0 < after.1
  /-- A run that starts with the end of a frame was in it. -/
  start : ∀ first ∈ fed.trace.head?, 0 < first.1 ∨ parser = .payload 0
  failed (e : FrameError) : fed.error = some e →
    ∀ more, ahead parser (bytes ++ more) = (fed.events.foldr FrameEvent.before [], some e)
  waiting : fed.error = none → fed.parser.Undecided ∧ fed.consumed = bytes.length ∧
    ahead fed.parser [] = ([], none) ∧
    ∀ more, ahead parser (bytes ++ more) =
      (fed.events.foldr FrameEvent.before (ahead fed.parser more).1, (ahead fed.parser more).2)

theorem feedSlice_feeds {parser : ParserState} {bytes : Bytes} (undecided : parser.Undecided) :
    Feeds parser bytes (feedSlice parser bytes) := by
  fun_induction feedSlice parser bytes with
  | case1 parser bytes next e called =>
      constructor
      case within => exact Nat.zero_le _
      case progress => exact .nil
      case start => intro first member; cases member
      case failed =>
        intro e' same more
        cases same
        exact feedOne_fails undecided called more
      case waiting => intro none; cases none
  | case2 parser bytes next consumed called =>
      have waits := feedOne_waits undecided called
      constructor
      case within => exact waits.whole.le
      case progress => exact .nil
      case start => intro first member; cases member
      case failed => intro e same; cases same
      case waiting =>
        intro none
        exact ⟨waits.undecided, waits.whole, waits.nothing, waits.ahead⟩
  | case3 parser bytes next consumed event called rest ih =>
      have yields := feedOne_yields undecided called
      have feeds := ih yields.undecided
      have size := List.length_drop (i := consumed) (l := bytes)
      constructor
      case within =>
        have := yields.within
        have : rest.consumed ≤ (bytes.drop consumed).length := feeds.within
        dsimp only
        omega
      case progress =>
        refine List.isChain_cons.mpr ⟨fun first member => ?_, feeds.progress⟩
        cases yields.progress with
        | inl some => exact .inl some
        | inr ended =>
            right
            -- behind the end of a frame the parser is idle
            cases feeds.start first member with
            | inl some => exact some
            | inr inPayload => cases ended.2.symm.trans inPayload
      case start =>
        intro first member
        cases member
        exact yields.progress.imp id And.left
      case failed =>
        intro e same more
        rw [yields.ahead more, feeds.failed e same more]
        rfl
      case waiting =>
        intro none
        obtain ⟨undecided', whole, nothing, reads⟩ := feeds.waiting none
        refine ⟨undecided', ?_, nothing, fun more => ?_⟩
        · have := yields.within
          have : rest.consumed = (bytes.drop consumed).length := whole
          dsimp only
          omega
        · rw [yields.ahead more, reads more]
          rfl

theorem feedSlices_feeds {parser : ParserState} (undecided : parser.Undecided)
    (nothing : ahead parser [] = ([], none)) (slices : List Bytes) :
    Feeds parser slices.flatten (feedSlices parser [] slices) := by
  induction slices generalizing parser with
  | nil =>
      constructor
      case within => exact Nat.le_refl 0
      case progress => exact .nil
      case start => intro first member; cases member
      case failed => intro e same; cases same
      case waiting => exact fun _ => ⟨undecided, rfl, nothing, fun _ => rfl⟩
  | cons slice slices ih =>
      have here := @feedSlice_feeds parser slice undecided
      have split : (slice :: slices).flatten = slice ++ slices.flatten := rfl
      rw [split, feedSlices]
      simp only [List.nil_append]
      cases failed : (feedSlice parser slice).error with
      | some e =>
          simp only [Option.isSome_some, if_true]
          constructor
          case within =>
            rw [List.length_append]
            exact Nat.le_trans here.within (Nat.le_add_right _ _)
          case progress => exact here.progress
          case start => exact here.start
          case failed =>
            intro e' same more
            rw [List.append_assoc]
            exact here.failed e' same _
          case waiting => intro none; rw [failed] at none; cases none
      | none =>
          obtain ⟨undecided', whole, nothing', reads⟩ := here.waiting failed
          rw [whole, List.drop_length]
          have later := ih undecided' nothing'
          -- a parser that waits is not at the end of a frame
          have starts : ∀ first ∈ (feedSlices (feedSlice parser slice).parser [] slices).trace.head?,
              0 < first.1 := by
            intro first member
            cases later.start first member with
            | inl some => exact some
            | inr ended => rw [ended] at nothing'; cases nothing'
          simp only [Option.isSome_none, Bool.false_eq_true, if_false]
          constructor
          case within =>
            rw [List.length_append]
            exact Nat.add_le_add_left later.within _
          case progress =>
            refine List.isChain_append.mpr ⟨here.progress, later.progress, ?_⟩
            exact fun _ _ first member => .inr (starts first member)
          case start =>
            intro first member
            rw [List.head?_append] at member
            cases empty : (feedSlice parser slice).trace.head? with
            | none =>
                rw [empty] at member
                exact .inl (starts first member)
            | some event =>
                rw [empty] at member
                exact here.start first (empty.trans member)
          case failed =>
            intro e same more
            rw [List.append_assoc, reads, later.failed e same more]
            simp only [Fed.events, List.map_append, List.foldr_append]
          case waiting =>
            intro none
            obtain ⟨undecided'', whole', nothing'', reads'⟩ := later.waiting none
            refine ⟨undecided'', ?_, nothing'', fun more => ?_⟩
            · rw [whole', List.length_append]
            · rw [List.append_assoc, reads, reads']
              simp only [Fed.events, List.map_append, List.foldr_append]

/-- However a byte string is cut into calls, the parser yields the events of the frames it holds,
with payloads in one or more pieces, and stops where reading at once stops.  Without an error every
byte has been consumed once, and no two calls in a row consume nothing. -/
theorem feedSlices_batch (slices : List Bytes) :
    let fed := feedSlices .idle [] slices
    let read := batch slices.flatten
    joinChunks fed.events = read.events ∧ fed.error = read.error ∧
      fed.consumed ≤ slices.flatten.length ∧
      (fed.error = none → fed.consumed = slices.flatten.length) ∧
      fed.trace.IsChain fun before after => 0 < before.1 ∨ 0 < after.1 := by
  have nothing : ahead .idle [] = ([], none) := by
    rw [ahead, batch_incomplete (by decide)]
    rfl
  have feeds := @feedSlices_feeds .idle trivial nothing slices
  dsimp only
  cases failed : (feedSlices .idle [] slices).error with
  | some e =>
      have reads := feeds.failed e failed []
      rw [List.append_nil, ahead, Prod.mk.injEq] at reads
      exact ⟨reads.1.symm, reads.2.symm, feeds.within, by simp, feeds.progress⟩
  | none =>
      obtain ⟨-, whole, nothing', reads⟩ := feeds.waiting failed
      have reads := reads []
      rw [List.append_nil, nothing', ahead, Prod.mk.injEq] at reads
      exact ⟨reads.1.symm, reads.2.symm, feeds.within, fun _ => whole, feeds.progress⟩

end Talaris.Ws
