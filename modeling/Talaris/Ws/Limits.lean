import Talaris.Ws.Chunking
import Talaris.Ws.Session

/-!
# Limits on what a client buffers

The message buffer is within `maxMessageSize` after every call, because each frame is counted in
when it starts (`Within`).  The receive buffer is within its limit as long as bytes are read:
every state refuses a header or a frame that is too long before it waits for the rest.  Only a
client that has received a Close frame reads nothing and refuses nothing, so there the limit
holds as long as the bytes behind that frame are within it (`inbound_bounded_iff`).
-/

namespace Talaris.Ws

/-! ## Headers -/

/-- The header bytes kept are no more than the header has. -/
def ParserState.Fits : ParserState → Prop
  | headerPartial filled => filled.length ≤ minNeeded filled
  | idle | payload _ => True

theorem minNeeded_take_eq {buffered : Bytes} (complete : HeaderComplete buffered) :
    minNeeded (buffered.take (minNeeded buffered)) = minNeeded buffered := by
  have long : 2 ≤ (buffered.take (minNeeded buffered)).length := by
    rw [minNeeded_take complete]
    exact minNeeded_ge buffered
  rw [← minNeeded_append long (buffered.drop (minNeeded buffered)), List.take_append_drop]

theorem parseFilled_fits {filled : Bytes} (fits : filled.length ≤ minNeeded filled)
    (consumed : Nat) : (parseFilled filled consumed).1.Fits := by
  unfold parseFilled
  repeat' split
  all_goals first | exact fits | trivial

theorem feedHeader_fits {filled bytes : Bytes} (fits : filled.length ≤ minNeeded filled) :
    (feedHeader filled bytes 0).1.Fits := by
  have within := Nat.le_trans fits (minNeeded_le_append filled bytes)
  rw [feedHeader_eq filled bytes 0 within]
  split
  next complete =>
    apply parseFilled_fits
    rw [minNeeded_take complete, minNeeded_take_eq complete]
  next incomplete =>
    unfold HeaderComplete at incomplete
    show (filled ++ bytes).length ≤ minNeeded (filled ++ bytes)
    omega

theorem feedOne_fits {parser : ParserState} (fits : parser.Fits) (bytes : Bytes) :
    (feedOne parser bytes).1.Fits := by
  unfold feedOne
  split
  next => exact feedHeader_fits (Nat.zero_le _)
  next filled => exact feedHeader_fits fits
  next =>
    repeat' split
    all_goals trivial

namespace WsClient

/-! ## The message buffer -/

/-- Bytes of the current frame that are still to go to `msgBuf`. -/
def due (w : WsClient) : Nat :=
  match w.parser, w.curOpcode with
  | .payload remaining, some opcode => if opcode.isControl then 0 else remaining
  | _, _ => 0

/-- The message fits, also the part of it that is still to come. -/
structure Within (w : WsClient) : Prop extends w.Framed where
  addressable : w.config.maxMessageSize + maxHeaderLen < 2 ^ 64
  message : w.msgBuf.length + w.due ≤ w.config.maxMessageSize
  /-- Outside of the exchange of frames no frame is being read. -/
  settled : w.state = .connecting ∨ w.state = .closed → w.parser = .idle
  header : w.parser.Fits

/-- A step that keeps its client within its limits. -/
def KeepsWithin (w w' : WsClient) : Prop := w.Within → w'.Within

theorem due_of_no_current {w : WsClient} (none : w.curOpcode = none) : w.due = 0 := by
  unfold due
  split <;> simp_all

theorem due_outside {w : WsClient} (outside : ∀ remaining, w.parser ≠ .payload remaining) :
    w.due = 0 := by
  unfold due
  split
  next inside _ => exact absurd inside (outside _)
  next => rfl

/-- Only the buffers it names matter. -/
theorem Within.of_same {w w' : WsClient} (within : w.Within)
    (same : w'.ctlBuf = w.ctlBuf ∧ w'.curOpcode = w.curOpcode ∧ w'.parser = w.parser)
    (config : w'.config = w.config) (message : w'.msgBuf.length ≤ w.msgBuf.length)
    (settled : w'.state = .connecting ∨ w'.state = .closed → w'.parser = .idle) : w'.Within where
  toFramed := within.toFramed.of_same same
  addressable := config ▸ within.addressable
  message := by
    have still : w'.due = w.due := by
      unfold due
      rw [same.2.1, same.2.2]
    rw [still, config]
    exact Nat.le_trans (Nat.add_le_add_right message _) within.message
  settled := settled
  header := same.2.2 ▸ within.header

theorem queueClose_msgBuf (w : WsClient) (code : Nat) (reason : String) :
    (w.queueClose code reason).msgBuf = w.msgBuf := by
  unfold queueClose
  split
  next => rfl
  next =>
    dsimp only [writeFrame]
    split <;> rfl

theorem queueClose_state_cases (w : WsClient) (code : Nat) (reason : String) :
    (w.queueClose code reason).state = w.state ∨ (w.queueClose code reason).state = .closing := by
  unfold queueClose
  split
  next => exact .inl rfl
  next =>
    dsimp only [writeFrame]
    split
    next => exact .inr rfl
    next => exact .inl rfl

theorem Within.queueClose {w : WsClient} (within : w.Within) (code : Nat) (reason : String) :
    (w.queueClose code reason).Within := by
  refine within.of_same (w.queueClose_input code reason) (w.queueClose_config code reason) ?_ ?_
  · rw [queueClose_msgBuf]
  · rw [queueClose_parserState]
    obtain same | closing := w.queueClose_state_cases code reason
    · rw [same]
      exact within.settled
    · simp [closing]

theorem Within.clearAfterEmit {w : WsClient} (within : w.Within) : w.clearAfterEmit.Within := by
  have framed := (w.clearAfterEmit_drives within.toFramed).1
  refine ⟨framed, by simpa using within.addressable, ?_, ?_, ?_⟩
  · have message := within.message
    unfold WsClient.clearAfterEmit
    repeat' split
    all_goals first | exact message | exact Nat.le_trans (by simp [due]) message
  · rw [w.clearAfterEmit_state]
    have settled := within.settled
    unfold WsClient.clearAfterEmit
    repeat' split
    all_goals exact settled
  · have header := within.header
    unfold WsClient.clearAfterEmit
    repeat' split
    all_goals exact header

/-- The start of a frame, not counted in yet. -/
structure Starting (w : WsClient) (h : FrameHeader) : Prop where
  control : w.ctlBuf.length ≤ maxControlPayload
  none : w.curOpcode = none
  parser : w.parser = .payload h.payloadLen
  small : h.opcode.isControl = true → h.payloadLen ≤ maxControlPayload
  addressable : w.config.maxMessageSize + maxHeaderLen < 2 ^ 64
  message : w.msgBuf.length ≤ w.config.maxMessageSize
  live : w.Live

theorem Starting.within {w : WsClient} {h : FrameHeader} (starting : w.Starting h) : w.Within where
  control := starting.control
  current := by simp [starting.none]
  addressable := starting.addressable
  message := by
    rw [due_of_no_current starting.none]
    exact starting.message
  settled := by
    obtain isOpen | closing := starting.live
    · simp [isOpen]
    · simp [closing]
  header := by
    rw [starting.parser]
    trivial

theorem Starting.startData {w : WsClient} {h : FrameHeader} (starting : w.Starting h)
    (isData : h.opcode.isControl = false) : (w.startData h).1.Within := by
  have within := starting.within
  unfold WsClient.startData
  split
  next => exact within.queueClose _ _
  next fits =>
    refine ⟨⟨within.control, ?_⟩, within.addressable, ?_, within.settled, within.header⟩
    · rintro opcode ⟨⟩
      exact ⟨h.payloadLen, starting.parser, by simp [isData]⟩
    · -- the sum is below the limit, so it has not saturated
      have room := starting.addressable
      rw [maxHeaderLen] at room
      simp only [due, starting.parser, isData, Bool.false_eq_true, if_false]
      simp only [saturatingAdd64, gt_iff_lt, not_lt] at fits
      omega

theorem Starting.onFrameStart {w : WsClient} {h : FrameHeader} (starting : w.Starting h) :
    (w.onFrameStart h).1.Within := by
  have within := starting.within
  unfold WsClient.onFrameStart
  split
  next => exact within.queueClose _ _
  next =>
    split
    next isControl =>
      refine ⟨⟨by simp, ?_⟩, within.addressable, ?_, within.settled, within.header⟩
      · rintro opcode ⟨⟩
        refine ⟨h.payloadLen, starting.parser, fun _ => ?_⟩
        simpa using starting.small isControl
      · simp only [due, starting.parser, isControl, if_true, Nat.add_zero]
        exact starting.message
    next isData =>
      rw [Bool.not_eq_true] at isData
      repeat' split
      all_goals first
        | exact within.queueClose _ _
        | exact starting.startData isData
        | skip
      next =>
        have emptied : WsClient.Starting { w with msgOpcode := some h.opcode, msgBuf := [] } h :=
          ⟨starting.control, starting.none, starting.parser, starting.small,
            starting.addressable, Nat.zero_le _, starting.live⟩
        exact emptied.startData isData

theorem Within.onReceivedClose {w : WsClient} (within : w.Within) (idle : w.parser = .idle) :
    w.onReceivedClose.1.Within := by
  unfold WsClient.onReceivedClose
  split
  next =>
    have queued := within.queueClose CloseCode.protocolError.asU16 "bad close payload"
    exact queued.of_same ⟨rfl, rfl, rfl⟩ rfl (Nat.le_refl _) (by simp)
  next =>
    dsimp only
    split
    next =>
      have queued := fun code => within.queueClose code ""
      refine (queued _).of_same ⟨rfl, rfl, rfl⟩ rfl (Nat.le_refl _) fun _ => ?_
      rw [queueClose_parserState]
      exact idle
    next => exact within.of_same ⟨rfl, rfl, rfl⟩ rfl (Nat.le_refl _) fun _ => idle

theorem Within.endControl {w : WsClient} (within : w.Within) (idle : w.parser = .idle)
    (opcode : OpCode) : (w.endControl opcode).1.Within := by
  have received := within.onReceivedClose idle
  unfold WsClient.endControl
  cases opcode with
  | ping =>
      dsimp only
      split
      next => exact within.of_same ⟨rfl, rfl, rfl⟩ rfl (Nat.le_refl _) within.settled
      next => exact within
  | close =>
      dsimp only
      split <;> simp_all
  | continuation | text | binary | pong => exact within

/-- The end of a frame; the parser has left its payload. -/
theorem onFrameEnd_within {w : WsClient} (control : w.ctlBuf.length ≤ maxControlPayload)
    (addressable : w.config.maxMessageSize + maxHeaderLen < 2 ^ 64)
    (room : w.msgBuf.length ≤ w.config.maxMessageSize) (idle : w.parser = .idle) :
    w.onFrameEnd.1.Within := by
  have ended {w' : WsClient} (none : w'.curOpcode = none) (ctlBuf : w'.ctlBuf = w.ctlBuf)
      (config : w'.config = w.config) (msgBuf : w'.msgBuf = w.msgBuf)
      (parser : w'.parser = w.parser) : w'.Within := by
    refine ⟨⟨ctlBuf ▸ control, by simp [none]⟩, config ▸ addressable, ?_, fun _ => parser.trans idle,
      ?_⟩
    · rw [due_of_no_current none, msgBuf, config]
      exact room
    · rw [parser, idle]
      trivial
  unfold WsClient.onFrameEnd
  split
  next none => exact ended none rfl rfl rfl rfl
  next opcode current =>
    have taken (msgOpcode : Option OpCode) :
        WsClient.Within { w with curOpcode := none, msgOpcode } := ended rfl rfl rfl rfl rfl
    dsimp only
    split
    next => exact (taken w.msgOpcode).endControl idle opcode
    next =>
      repeat' split
      all_goals first | exact taken _ | exact (taken _).queueClose _ _

/-- Payload bytes move from what is due to the buffer. -/
theorem Within.takePayload {w : WsClient} (within : w.Within) (live : w.Live) {remaining : Nat}
    (parser : w.parser = .payload remaining) {slice : Bytes} (short : slice.length ≤ remaining)
    (recvBuf : Bytes) :
    (WsClient.takePayload { w with parser := .payload (remaining - slice.length), recvBuf }
      slice).Within := by
  have message := within.message
  have outside {parser : ParserState} :
      w.state = .connecting ∨ w.state = .closed → parser = .idle := by
    obtain isOpen | closing := live
    · simp [isOpen]
    · simp [closing]
  cases current : w.curOpcode with
  | none =>
      simp only [WsClient.takePayload]
      refine ⟨⟨within.control, by simp⟩, within.addressable, ?_, outside, trivial⟩
      rw [due_of_no_current current] at message
      rwa [due_of_no_current rfl]
  | some opcode =>
      simp only [WsClient.takePayload]
      obtain ⟨left, same, bound⟩ := within.current opcode current
      rw [parser, ParserState.payload.injEq] at same
      subst same
      unfold due at message
      rw [parser, current] at message
      dsimp only at message ⊢
      cases control : opcode.isControl with
      | true =>
          have enough := bound control
          simp only [control, if_true] at message ⊢
          refine ⟨⟨?_, ?_⟩, within.addressable, ?_, outside, trivial⟩
          · rw [List.length_append]
            omega
          · rintro other ⟨⟩
            refine ⟨_, rfl, fun _ => ?_⟩
            rw [List.length_append]
            omega
          · simpa [due, control] using message
      | false =>
          simp only [control, Bool.false_eq_true, if_false] at message ⊢
          refine ⟨⟨within.control, ?_⟩, within.addressable, ?_, outside, trivial⟩
          · rintro other ⟨⟩
            exact ⟨_, rfl, by simp [control]⟩
          · simp only [due, control, Bool.false_eq_true, if_false, List.length_append]
            omega

theorem Within.advanceFrame {w : WsClient} (within : w.Within) (live : w.Live) :
    w.advanceFrame.1.Within := by
  have fed := feedOne_fed w.parser w.recvBuf
  have fits := feedOne_fits within.header w.recvBuf
  unfold WsClient.advanceFrame
  generalize feedOne w.parser w.recvBuf = out at fed fits
  obtain ⟨parser, outcome⟩ := out
  dsimp only at fed fits
  have room : w.msgBuf.length ≤ w.config.maxMessageSize :=
    Nat.le_trans (Nat.le_add_right _ _) within.message
  have outside {parser : ParserState} :
      w.state = .connecting ∨ w.state = .closed → parser = .idle := by
    obtain isOpen | closing := live
    · simp [isOpen]
    · simp [closing]
  -- outside of a payload nothing is due, wherever the parser goes
  have moved (none : w.curOpcode = none) (recvBuf : Bytes) :
      WsClient.Within { w with parser, recvBuf } := by
    refine ⟨⟨within.control, by simp [none]⟩, within.addressable, ?_, outside, fits⟩
    rw [due_of_no_current (by exact none)]
    exact room
  generalize origin : w.parser = before at fed
  cases fed with
  | failed e header =>
      have none := within.no_current (origin ▸ header)
      exact (moved none w.recvBuf).queueClose _ _
  | inHeader consumed header => exact moved (within.no_current (origin ▸ header)) _
  | started consumed h header small =>
      have none := within.no_current (origin ▸ header)
      have starting : WsClient.Starting
          { w with parser := .payload h.payloadLen, recvBuf := w.recvBuf.drop consumed } h :=
        ⟨within.control, none, rfl, small, within.addressable, room, live⟩
      have started := starting.onFrameStart
      dsimp only
      split <;> simp_all
  | inPayload remaining consumed =>
      exact within.of_same ⟨rfl, rfl, origin.symm⟩ rfl (Nat.le_refl _) outside
  | took remaining consumed slice short => exact within.takePayload live origin short _
  | ended remaining consumed =>
      have last := onFrameEnd_within
        (w := { w with parser := .idle, recvBuf := w.recvBuf.drop consumed })
        within.control within.addressable room rfl
      dsimp only
      split <;> simp_all

/-! ### A step that fails leaves its client closing, or at the end of a frame -/

theorem startData_failed {w w' : WsClient} {h : FrameHeader} {e : WsError} (live : w.Live)
    (failed : w.startData h = (w', .error e)) : w'.state = .closing := by
  unfold startData at failed
  split at failed
  next =>
    simp only [Prod.mk.injEq] at failed
    rw [← failed.1]
    exact queueClose_closing live _ _
  next => simp at failed

theorem onFrameStart_failed {w w' : WsClient} {h : FrameHeader} {e : WsError} (live : w.Live)
    (failed : w.onFrameStart h = (w', .error e)) : w'.state = .closing := by
  have refused {code : Nat} {reason : String} {e' : WsError}
      (failed : (w.queueClose code reason, Except.error (α := Unit) e') = (w', .error e)) :
      w'.state = .closing := by
    simp only [Prod.mk.injEq] at failed
    rw [← failed.1]
    exact queueClose_closing live _ _
  unfold onFrameStart at failed
  repeat' split at failed
  all_goals first
    | exact refused failed
    | exact startData_failed (by exact live) failed
    | simp at failed

theorem advanceFrame_failed {w w' : WsClient} {e : WsError} (live : w.Live)
    (failed : w.advanceFrame = (w', .error e)) : w'.state = .closing ∨ w'.parser = .idle := by
  have fed := feedOne_fed w.parser w.recvBuf
  unfold advanceFrame at failed
  generalize feedOne w.parser w.recvBuf = out at fed failed
  obtain ⟨parser, outcome⟩ := out
  dsimp only at fed
  generalize w.parser = before at fed
  cases fed with
  | failed e header =>
      simp only [Prod.mk.injEq] at failed
      refine .inl ?_
      rw [← failed.1]
      exact queueClose_closing (w := { w with parser }) live _ _
  | inHeader consumed header | inPayload remaining consumed => simp at failed
  | started consumed h header small =>
      dsimp only at failed
      split at failed
      next started =>
        simp only [Prod.mk.injEq] at failed
        rw [failed.1] at started
        exact .inl (onFrameStart_failed (by exact live) started)
      next => simp at failed
  | took remaining consumed slice short => simp at failed
  | ended remaining consumed =>
      have input := onFrameEnd_input { w with parser := .idle, recvBuf := w.recvBuf.drop consumed }
      dsimp only at failed
      split at failed
      next ended =>
        simp only [Prod.mk.injEq] at failed
        rw [ended, failed.1] at input
        exact .inr input.2
      next => simp at failed
      next => simp at failed

/-! ### Every call keeps its client within the limits -/

theorem Within.closeOnError {w : WsClient} (within : w.Within)
    (quiet : w.state = .closing ∨ w.parser = .idle) : w.closeOnError.Within := by
  unfold WsClient.closeOnError
  split
  next other =>
    obtain closing | idle := quiet
    · exact absurd closing other
    · exact within.of_same ⟨rfl, rfl, rfl⟩ rfl (Nat.le_refl _) fun _ => idle
  next => exact within

theorem Within.tryEmitBorrowedData {w : WsClient} (within : w.Within) :
    w.tryEmitBorrowedData.1.Within := by
  unfold WsClient.tryEmitBorrowedData
  dsimp only
  repeat' split
  all_goals first
    | exact within
    | exact within.queueClose _ _
    | exact within.of_same ⟨rfl, rfl, rfl⟩ rfl (Nat.le_refl _) within.settled

theorem tryEmitBorrowedData_failed {w w' : WsClient} {e : WsError}
    (failed : w.tryEmitBorrowedData = (w', .error e)) : w'.state = .closing := by
  unfold WsClient.tryEmitBorrowedData at failed
  dsimp only at failed
  split at failed
  next => simp at failed
  next ready =>
    have live : w.Live := by
      refine .inl ?_
      by_contra other
      exact ready (.inl other)
    repeat' split at failed
    all_goals first
      | simp at failed
        done
      | simp only [Prod.mk.injEq] at failed
        rw [← failed.1]
        exact queueClose_closing live _ _

section Polling

variable [AcceptDigest]

theorem Within.advanceHandshake {w : WsClient} (within : w.Within) :
    w.advanceHandshake.1.Within := by
  unfold WsClient.advanceHandshake
  repeat' split
  all_goals first
    | exact within
    | exact within.of_same ⟨rfl, rfl, rfl⟩ rfl (Nat.le_refl _) (by simp)

theorem Within.advance {w : WsClient} (within : w.Within) : w.advance.1.Within := by
  unfold WsClient.advance
  split
  next => exact within.advanceHandshake
  next isOpen => exact within.advanceFrame (.inl isOpen)
  next closing => exact within.advanceFrame (.inr closing)
  next => exact within

theorem Within.advance_failed {w w' : WsClient} {e : WsError} (within : w.Within)
    (failed : w.advance = (w', .error e)) : w'.state = .closing ∨ w'.parser = .idle := by
  unfold WsClient.advance at failed
  split at failed
  next connecting =>
    have idle := within.settled (.inl connecting)
    unfold WsClient.advanceHandshake at failed
    repeat' split at failed
    all_goals
      simp only [Prod.mk.injEq, reduceCtorEq, and_false] at failed
    all_goals
      rw [← failed.1]
      exact .inr idle
  next isOpen => exact advanceFrame_failed (.inl isOpen) failed
  next closing => exact advanceFrame_failed (.inr closing) failed
  next => simp at failed

theorem pollTurn_keepsWithin (w : WsClient) : w.KeepsWithin w.pollTurn.1 := by
  intro within
  have lent {w : WsClient} (kind : EmitKind) (within : w.Within) : (w.emitted kind).1.Within :=
    within.of_same ⟨rfl, rfl, rfl⟩ rfl (Nat.le_refl _) within.settled
  have tried := within.tryEmitBorrowedData
  unfold pollTurn
  split
  next => exact within
  next =>
    split
    next found =>
      rw [found] at tried
      exact lent _ tried
    next found =>
      rw [found] at tried
      exact tried
    next found =>
      rw [found] at tried
      exact tried.closeOnError (.inl (tryEmitBorrowedData_failed found))
    next w₁ found =>
      cases tryEmitBorrowedData_fallback found
      have stepped := within.advance
      unfold afterAdvance
      split
      next advanced =>
        rw [advanced] at stepped
        exact lent _ stepped
      next advanced =>
        rw [advanced] at stepped
        exact stepped
      next advanced =>
        rw [advanced] at stepped
        exact stepped
      next advanced =>
        rw [advanced] at stepped
        exact stepped.closeOnError (within.advance_failed advanced)

theorem keepsWithin_respected : Respected KeepsWithin where
  refl _ := id
  trans first second := second ∘ first
  clear _ := Within.clearAfterEmit
  feed _ _ within := within.of_same ⟨rfl, rfl, rfl⟩ rfl (Nat.le_refl _) within.settled
  turn {w} _ := w.pollTurn_keepsWithin
  read _ _ _ _ within := within.of_same ⟨rfl, rfl, rfl⟩ rfl (Nat.le_refl _) within.settled
  refuse e _ _ _ within := by cases e <;> exact within.queueClose _ _

/-! ## A drain without an error has taken back what it lent -/

section Draining

variable {σ : Type} (ops : SinkOps σ)

theorem drain_lastEmitted {w w' : WsClient} {sink sink' : σ} {events count : Nat}
    (drained : w.drain ops sink events = (w', sink', .ok count)) : w'.lastEmitted = none := by
  fun_induction drain ops w sink events with
  | case1 w sink events w₁ sink₁ more turned ih => exact ih drained
  | case2 w sink events w₁ sink₁ result turned =>
      simp only [Prod.mk.injEq] at drained
      obtain ⟨rfl, rfl, rfl⟩ := drained
      have kept := tryDrain_lastEmitted ops w.clearAfterEmit sink
      rw [clearAfterEmit_lastEmitted] at kept
      unfold drainTurn at turned
      split at turned
      next => simp at turned
      next => simp at turned
      next w₂ sink₂ direct tried =>
        simp only [Prod.mk.injEq] at turned
        rw [tried] at kept
        exact turned.1 ▸ kept
      next w₂ sink₂ direct tried =>
        unfold drainEvent at turned
        split at turned
        next w₃ polled =>
          simp only [Prod.mk.injEq] at turned
          exact turned.1 ▸ pollEvent_lastEmitted polled (by simp)
        next => simp at turned
        next => simp at turned

theorem drainFromIngress_lastEmitted {w w' : WsClient} {bytes : Bytes} {sink sink' : σ}
    {count : Nat} (drained : w.drainFromIngress ops bytes sink = (w', sink', .ok count)) :
    w'.lastEmitted = none := by
  have cleared := w.clearAfterEmit_lastEmitted
  unfold drainFromIngress at drained
  dsimp only at drained
  generalize w.clearAfterEmit = w₁ at cleared drained
  split at drained
  next => exact drain_lastEmitted ops drained
  next =>
    split at drained
    next =>
      have kept {w₂ : WsClient} {sink₂ : σ} {found : Nat × Bytes × DirectDataResult}
          (tried : w₁.tryDrainIngress ops bytes sink = (w₂, sink₂, .ok found)) : w₂ = w₁ := by
        unfold tryDrainIngress at tried
        dsimp only at tried
        split at tried
        next =>
          simp only [Prod.mk.injEq] at tried
          exact tried.1.symm
        next => simp at tried
      split at drained
      next => simp at drained
      next tried =>
        simp only [Prod.mk.injEq] at drained
        rw [← drained.1, kept tried, cleared]
      next tried =>
        simp only [Prod.mk.injEq] at drained
        rw [← drained.1, kept tried]
        exact cleared
      next => exact drain_lastEmitted ops drained
    next => exact drain_lastEmitted ops drained

end Draining

end Polling

end WsClient

/-! ## The receive buffer -/

/-- What the receive buffer of a client may hold. -/
def WsConfig.recvLimit (config : WsConfig) : Nat :=
  max Http.maxResponseHeaderBytes
    (maxHeaderLen + min config.maxFramePayload config.maxMessageSize)

theorem headerSizeFromByte1_le (b1 : UInt8) : headerSizeFromByte1 b1 ≤ maxHeaderLen := by
  simp only [headerSizeFromByte1, maxHeaderLen]
  repeat' split
  all_goals omega

theorem minNeeded_le (r : Bytes) : minNeeded r ≤ maxHeaderLen := by
  match r with
  | [] => decide
  | [_] => simp [minNeeded, maxHeaderLen]
  | _ :: b1 :: _ => exact headerSizeFromByte1_le b1

theorem parseHeader_none_incomplete {r : Bytes} (short : parseHeader r = .ok none) :
    ¬ HeaderComplete r := fun complete => parseHeader_ne_none complete short

theorem length_le_recvLimit {config : WsConfig} {r : Bytes} (incomplete : ¬ HeaderComplete r) :
    r.length ≤ config.recvLimit := by
  have needed := minNeeded_le r
  have header : maxHeaderLen ≤ config.recvLimit :=
    Nat.le_trans (Nat.le_add_right _ _) (Nat.le_max_right _ _)
  unfold HeaderComplete at incomplete
  omega

section Verdicts

variable [AcceptDigest] (config : WsConfig) (clientKey : Text)

omit [AcceptDigest] in
/-- A data frame waits for bytes that were found acceptable. -/
theorem Core.data_waits {c : Core} {kind : DataKind} {acc r : Bytes} {h : FrameHeader}
    {headerLen : Nat} (small : h.payloadLen < 2 ^ 63)
    (waits : c.data config kind acc h headerLen r = .needMore) :
    r.length < headerLen + h.payloadLen ∧ h.payloadLen ≤ config.maxMessageSize := by
  unfold Core.data at waits
  split at waits
  next => cases waits
  next fits =>
    split at waits
    next short =>
      refine ⟨short, ?_⟩
      simp only [saturatingAdd64, gt_iff_lt, not_lt] at fits
      omega
    next =>
      dsimp only at waits
      repeat' split at waits
      all_goals cases waits

omit [AcceptDigest] in
/-- A sound frame waits for less than the receive buffer may hold. -/
theorem Core.body_waits {c : Core} {h : FrameHeader} {r : Bytes}
    (parsed : parseHeader r = .ok (some (h, minNeeded r)))
    (waits : c.body config h (minNeeded r) r = .needMore) : r.length ≤ config.recvLimit := by
  have needed := minNeeded_le r
  have small := parseHeader_payloadLen_lt parsed
  have dataFrame (room : h.payloadLen ≤ config.maxFramePayload)
      (bound : r.length < minNeeded r + h.payloadLen ∧ h.payloadLen ≤ config.maxMessageSize) :
      r.length ≤ config.recvLimit := by
    unfold WsConfig.recvLimit
    omega
  unfold Core.body at waits
  split at waits
  next => cases waits
  next room =>
    have room := Nat.le_of_not_lt room
    split at waits
    next isControl =>
      split at waits
      next short =>
        have payload := WsClient.parseHeader_control parsed isControl
        simp only [WsConfig.recvLimit, Http.maxResponseHeaderBytes, maxHeaderLen] at needed ⊢
        simp only [maxControlPayload] at payload
        omega
      next =>
        unfold Core.control at waits
        repeat' split at waits
        all_goals cases waits
    next =>
      split at waits
      next => cases waits
      next => exact dataFrame room (c.data_waits config small waits)
      next => cases waits
      next => exact dataFrame room (c.data_waits config small waits)

theorem Core.handshake_waits {c : Core} {r : Bytes}
    (waits : c.handshake config clientKey r = .needMore) : r.length ≤ config.recvLimit := by
  unfold Core.handshake at waits
  split at waits
  next => cases waits
  next short =>
    refine Nat.le_trans ?_ (Nat.le_max_left _ _)
    unfold Http.parseResponse at short
    split at short
    next =>
      split at short
      next => cases short
      next long => exact Nat.le_of_not_lt long
    next => split at short <;> cases short
  next => split at waits <;> cases waits

theorem scan_rest_le (c : Core) (r : Bytes) : (scan config clientKey c r).rest.length ≤ r.length := by
  fun_induction scan config clientKey c r with
  | case1 | case2 | case3 => exact Nat.le_refl _
  | case4 c r next size event judged ih =>
      refine Nat.le_trans ih ?_
      rw [List.length_drop]
      exact Nat.sub_le _ _

/-- As long as bytes are read, none of the verdicts waits for too many. -/
theorem Core.judge_waits {c : Core} {r : Bytes} (reading : c.state ≠ .closed)
    (waits : c.judge config clientKey r = .needMore ∨
      (c.judge config clientKey r = .violation ∧ ¬ HeaderComplete r)) :
    r.length ≤ config.recvLimit := by
  obtain waits | ⟨-, incomplete⟩ := waits
  · have framed (good : ¬ BadHeader r = true) (sound : c.sound config r = .needMore) :
        r.length ≤ config.recvLimit := by
      unfold Core.sound at sound
      cases parsed : parseHeader r with
      | error e => exact absurd (badHeader_of_error parsed) good
      | ok found =>
          cases found with
          | none => exact length_le_recvLimit (parseHeader_none_incomplete parsed)
          | some found =>
              obtain ⟨h, headerLen⟩ := found
              obtain ⟨rfl, -⟩ := parseHeader_some_minNeeded parsed
              rw [parsed] at sound
              exact c.body_waits config parsed sound
    unfold Core.judge at waits
    split at waits
    next closed => exact absurd closed reading
    next => exact c.handshake_waits config clientKey waits
    all_goals
      split at waits
      next => cases waits
      next good => exact framed good waits
  · exact length_le_recvLimit incomplete

/-- A reading that rests has what it waits for in front of it. -/
theorem Rests.waits {c : Core} {r : Bytes} (rests : Rests config clientKey c r) :
    c.judge config clientKey r = .needMore ∨
      (c.judge config clientKey r = .violation ∧ ¬ HeaderComplete r) := by
  cases judged : c.judge config clientKey r with
  | needMore => exact .inl rfl
  | violation =>
      obtain waiting | ⟨-, incomplete⟩ := rests
      · rw [scan_violation judged] at waiting
        cases waiting
      · exact .inr ⟨rfl, incomplete⟩
  | fail next error =>
      rw [Rests, scan_fail judged] at rests
      simp at rests
  | frame next size event =>
      -- a frame would have been taken out of `r`
      have taken := scan_rest_le config clientKey next (r.drop size)
      obtain ⟨least, bound⟩ := Core.judge_frame_size config clientKey judged
      have same : (scan config clientKey c r).rest = r := by
        obtain waiting | ⟨violated, -⟩ := rests
        · rw [waiting]
        · rw [violated]
      rw [scan_frame judged] at same
      simp only [Scan.prepend] at same
      rw [same, List.length_drop] at taken
      omega

end Verdicts

/-! ## Runs of drains -/

/-- Both buffers are within their limits. -/
def WsClient.Bounded (w : WsClient) : Prop :=
  w.recvBuf.length ≤ w.config.recvLimit ∧ w.msgBuf.length ≤ w.config.maxMessageSize

theorem HoldsInput.recvBuf_le {w : WsClient} {mode : Mode} {c : Core} {r : Bytes}
    (input : HoldsInput w mode c r) : w.recvBuf.length ≤ r.length := by
  unfold HoldsInput at input
  split at input
  next => rw [input.2.1]
  next filled parser =>
    rw [input.2.2.1, List.length_append]
    exact Nat.le_add_left _ _
  next remaining parser =>
    obtain ⟨-, -, head, got, h, inFrame⟩ := input
    rw [inFrame.bytes, List.length_append]
    exact Nat.le_add_left _ _

section Runs

variable [AcceptDigest] {config : WsConfig} {clientKey : Text}

/-- The bytes of a stream behind the Close frame of the server. -/
def behindClose (config : WsConfig) (clientKey : Text) (stream : Bytes) : Bytes :=
  let s := scan config clientKey ⟨.connecting, none, []⟩ stream
  if s.core.state = .closed then s.rest else []

/-- The client of a run that waits. -/
theorem Waits.bounded_iff {ε : Type} {out : Outcome ε} {s : Scan}
    (waits : Waits config clientKey out s) (rests : Rests config clientKey s.core s.rest)
    (within : out.1.Within) (cleared : out.1.lastEmitted = none) :
    out.1.Bounded ↔ (s.core.state = .closed → s.rest.length ≤ config.recvLimit) := by
  obtain ⟨mode, stands⟩ := waits.stands
  have holds := stands.holds
  rw [WsClient.clearAfterEmit_idle cleared] at holds
  have message : out.1.msgBuf.length ≤ out.1.config.maxMessageSize :=
    Nat.le_trans (Nat.le_add_right _ _) within.message
  by_cases closed : s.core.state = .closed
  · have input := holds.input
    have idle := within.settled (.inr (holds.wire.state.trans closed))
    unfold HoldsInput at input
    rw [idle] at input
    rw [WsClient.Bounded, holds.config, input.2.1]
    exact ⟨fun bounded _ => bounded.1, fun short => ⟨short closed, holds.config ▸ message⟩⟩
  · have short := s.core.judge_waits config clientKey closed (rests.waits config clientKey)
    have bounded : out.1.Bounded :=
      ⟨holds.config ▸ Nat.le_trans holds.input.recvBuf_le short, message⟩
    exact ⟨fun _ reached => absurd reached closed, fun _ => bounded⟩

omit [AcceptDigest] in
/-- The same calls up to any point have not failed either. -/
theorem inChunks_take {ε : Type} {feed : WsClient → Bytes → Outcome ε} {w : WsClient}
    {chunks : List Bytes} {count : Nat} (ran : (inChunks feed w chunks).2.2 = .ok count) (n : Nat) :
    ∃ count, (inChunks feed w (chunks.take n)).2.2 = .ok count := by
  induction chunks generalizing w n count with
  | nil => exact ⟨0, by simp [inChunks]⟩
  | cons chunk chunks ih =>
      cases n with
      | zero => exact ⟨0, by simp [inChunks]⟩
      | succ n =>
          unfold inChunks at ran
          rw [List.take_succ_cons, inChunks]
          cases fed : feed w chunk with
          | mk w₁ out =>
              obtain ⟨events, result⟩ := out
              cases result with
              | error e => simp [fed] at ran
              | ok first =>
                  rw [fed] at ran
                  dsimp only at ran ⊢
                  cases tail : (inChunks feed w₁ chunks).2.2 with
                  | error e => simp [tail, Except.map] at ran
                  | ok more =>
                      obtain ⟨count, ok⟩ := ih tail n
                      exact ⟨first + count, by simp [ok, Except.map]⟩

omit [AcceptDigest] in
/-- A call without an error is followed by the others. -/
theorem inChunks_cons_clean {ε : Type} {feed : WsClient → Bytes → Outcome ε} {w : WsClient}
    {chunk : Bytes} (clean : errorOf (feed w chunk).2.2 = none) (chunks : List Bytes) :
    (inChunks feed w (chunk :: chunks)).1 = (inChunks feed (feed w chunk).1 chunks).1 ∧
      errorOf (inChunks feed w (chunk :: chunks)).2.2 =
        errorOf (inChunks feed (feed w chunk).1 chunks).2.2 := by
  rw [inChunks]
  cases fed : feed w chunk with
  | mk w₁ out =>
      obtain ⟨events, result⟩ := out
      cases result with
      | error e => simp [fed, errorOf] at clean
      | ok count =>
          refine ⟨rfl, ?_⟩
          dsimp only
          cases (inChunks feed w₁ chunks).2.2 <;> rfl

omit [AcceptDigest] in
theorem errorOf_none {α : Type} {result : Except WsError α} (clean : errorOf result = none) :
    ∃ found, result = .ok found := by
  cases result with
  | ok found => exact ⟨found, rfl⟩
  | error e => cases clean

theorem inChunks_steady {w : WsClient} (within : w.Within) (cleared : w.lastEmitted = none)
    (chunks : List Bytes) {count : Nat}
    (ran : (inChunks WsClient.drainDataEventsFromIngress w chunks).2.2 = .ok count) :
    (inChunks WsClient.drainDataEventsFromIngress w chunks).1.Within ∧
      (inChunks WsClient.drainDataEventsFromIngress w chunks).1.lastEmitted = none := by
  induction chunks generalizing w count with
  | nil => exact ⟨within, cleared⟩
  | cons chunk chunks ih =>
      have kept : (w.drainDataEventsFromIngress chunk).1.Within :=
        WsClient.keepsWithin_respected.drainFromIngress _ w chunk _ within
      unfold inChunks at ran ⊢
      cases fed : w.drainDataEventsFromIngress chunk with
      | mk w₁ out =>
          obtain ⟨events, result⟩ := out
          cases result with
          | error e => simp [fed] at ran
          | ok first =>
              rw [fed] at ran kept
              dsimp only at ran kept ⊢
              cases tail : (inChunks WsClient.drainDataEventsFromIngress w₁ chunks).2.2 with
              | error e => simp [tail, Except.map] at ran
              | ok more =>
                  exact ih kept (WsClient.drainFromIngress_lastEmitted _ fed) tail

/-- Before its first byte a client stands at the start of the upgrade response. -/
theorem WsClient.newClient_stands {rng : SystemRandom} {created w : WsClient}
    (made : WsClient.newClient config rng = .ok created)
    (start : w = created ∨ w = created.beginHandshake.1) :
    Stands config created.clientKey w .idle ⟨.connecting, none, []⟩ [] ∧ w.Within ∧
      w.lastEmitted = none := by
  unfold WsClient.newClient at made
  repeat' split at made
  all_goals cases made
  next room _ _ _ _ =>
    rw [Nat.not_le] at room
    obtain rfl | rfl := start
    · refine ⟨Holds.stands ⟨rfl, rfl, rfl, rfl, ⟨rfl, rfl⟩, .idle rfl rfl ⟨rfl, by simp⟩⟩, ?_, rfl⟩
      exact ⟨⟨by simp, by simp⟩, room, by simp [WsClient.due], fun _ => rfl, trivial⟩
    · refine ⟨Holds.stands ⟨rfl, rfl, rfl, rfl, ⟨rfl, ?_⟩, .idle rfl rfl ⟨rfl, by simp⟩⟩, ?_, rfl⟩
      · simp [WsClient.beginHandshake, TxQueue.outbound, TxQueue.extend,
          TxQueue.compactTxIfNeeded_queued]
      · exact ⟨⟨by simp [WsClient.beginHandshake], by simp [WsClient.beginHandshake]⟩, room,
          by simp [WsClient.due, WsClient.beginHandshake], fun _ => rfl, trivial⟩

theorem rests_start : Rests config clientKey ⟨.connecting, none, []⟩ [] := by
  refine .inl (scan_needMore ?_)
  rfl

/-- Bytes behind a Close frame stay behind it. -/
theorem behindClose_append {stream : Bytes}
    (alive : ∀ next error,
      (scan config clientKey ⟨.connecting, none, []⟩ stream).ending ≠ .failed next error)
    (more : Bytes) :
    (behindClose config clientKey stream).length ≤
      (behindClose config clientKey (stream ++ more)).length := by
  unfold behindClose
  dsimp only
  rw [scan_append_alive config clientKey _ stream more alive]
  split
  next closed =>
    generalize (scan config clientKey ⟨.connecting, none, []⟩ stream) = s at closed
    have waits (r : Bytes) : s.core.judge config clientKey r = .needMore := by
      simp only [Core.judge, closed]
    rw [scan_needMore (waits _)]
    simp [Scan.prepend, closed]
  next => exact Nat.zero_le _

/-- In a run of drains without an error the buffers are within their limits after every call
exactly when no more than the receive buffer may hold has come behind the server's Close frame. -/
theorem inbound_bounded_iff {rng : SystemRandom} {created w : WsClient}
    (made : WsClient.newClient config rng = .ok created)
    (start : w = created ∨ w = created.beginHandshake.1) (chunks : List Bytes) {count : Nat}
    (ran : (inChunks WsClient.drainDataEventsFromIngress w chunks).2.2 = .ok count) :
    (∀ n, (inChunks WsClient.drainDataEventsFromIngress w (chunks.take n)).1.Bounded) ↔
      (behindClose config created.clientKey chunks.flatten).length ≤ config.recvLimit := by
  obtain ⟨stands, within, cleared⟩ := WsClient.newClient_stands made start
  -- what the calls up to some point give
  have point {chunks : List Bytes} {count : Nat}
      (ran : (inChunks WsClient.drainDataEventsFromIngress w chunks).2.2 = .ok count) :
      ((inChunks WsClient.drainDataEventsFromIngress w chunks).1.Bounded ↔
        (behindClose config created.clientKey chunks.flatten).length ≤ config.recvLimit) ∧
      ∀ next error,
        (scan config created.clientKey ⟨.connecting, none, []⟩ chunks.flatten).ending ≠
          .failed next error := by
    have follows := inChunks_rests drainDataEventsFromIngress_faithful stands rests_start chunks
    obtain ⟨waits, alive, rests⟩ := follows.rests ran
    obtain ⟨kept, last⟩ := inChunks_steady within cleared chunks ran
    refine ⟨(waits.bounded_iff rests kept last).trans ?_, alive⟩
    unfold behindClose
    dsimp only
    split
    next closed => exact ⟨fun short => short closed, fun short _ => short⟩
    next other => exact ⟨fun _ => Nat.zero_le _, fun _ closed => absurd closed other⟩
  constructor
  · intro bounded
    have last := bounded chunks.length
    rw [List.take_length] at last
    exact (point ran).1.mp last
  · intro short n
    obtain ⟨upTo, ran'⟩ := inChunks_take ran n
    obtain ⟨here, alive⟩ := point ran'
    refine here.mpr (Nat.le_trans ?_ short)
    have later := behindClose_append alive (chunks.drop n).flatten
    rwa [← List.flatten_append, List.take_append_drop] at later

/-- A client that is closed keeps what it is given. -/
theorem drainDataEventsFromIngress_closed {w : WsClient} (closed : w.state = .closed)
    (cleared : w.lastEmitted = none) (bytes : Bytes) :
    w.drainDataEventsFromIngress bytes = (w.feedRecv bytes, [], .ok 0) := by
  have drained {w : WsClient} (closed : w.state = .closed) (cleared : w.lastEmitted = none) :
      w.drain dataEventOps [] 0 = (w, [], .ok 0) := by
    have turned : w.drainTurn dataEventOps [] 0 = (w, [], .done (.ok 0)) := by
      have polled := WsClient.pollEvent_closed closed
      rw [WsClient.clearAfterEmit_idle cleared] at polled
      simp [WsClient.drainTurn, WsClient.clearAfterEmit_idle cleared, WsClient.tryDrain, closed,
        WsClient.drainEvent, polled]
    unfold WsClient.drain
    split <;> simp_all
  unfold WsClient.drainDataEventsFromIngress WsClient.drainFromIngress
  rw [WsClient.clearAfterEmit_idle cleared]
  cases empty : bytes.isEmpty with
  | true =>
      obtain rfl : bytes = [] := by simpa using empty
      rw [WsClient.feedRecv_nil]
      exact drained closed cleared
  | false =>
      have indirect : w.canDrainIngressDirectly = false := by
        simp [WsClient.canDrainIngressDirectly, closed]
      simp only [indirect, Bool.false_eq_true, if_false]
      exact drained closed cleared

end Runs

namespace Sample

attribute [local instance] digest

/-- The client that the server has closed. -/
def ended : WsClient := (opened.drainDataEventsFromIngress [0x88, 0x00]).1

end Sample

attribute [local instance] Sample.digest

/-- With the example client the limit holds up to the Close frame. -/
theorem inbound_bounded_iff_close :
    (∀ n, (inChunks WsClient.drainDataEventsFromIngress Sample.client
        ([Sample.response, [0x88, 0x00]].take n)).1.Bounded) ↔
      (behindClose Sample.config Sample.created.clientKey
        [Sample.response, [0x88, 0x00]].flatten).length ≤ Sample.config.recvLimit := by
  have clean : errorOf (inChunks WsClient.drainDataEventsFromIngress Sample.client
      [Sample.response, [0x88, 0x00]]).2.2 = none := by
    decide +kernel
  obtain ⟨count, ran⟩ := errorOf_none clean
  have start : Sample.client = Sample.created.beginHandshake.1 := rfl
  exact inbound_bounded_iff Sample.created_eq (.inr start) _ ran

/-- Whatever comes behind the Close frame stays in the receive buffer. -/
theorem behind_close_kept (bytes : Bytes) :
    errorOf (inChunks WsClient.drainDataEventsFromIngress Sample.client
        [Sample.response, [0x88, 0x00], bytes]).2.2 = none ∧
      (inChunks WsClient.drainDataEventsFromIngress Sample.client
        [Sample.response, [0x88, 0x00], bytes]).1 = Sample.ended.feedRecv bytes := by
  have opening := @inChunks_cons_clean _ WsClient.drainDataEventsFromIngress Sample.client
    Sample.response (by decide +kernel) [[0x88, 0x00], bytes]
  have opened : (Sample.client.drainDataEventsFromIngress Sample.response).1 = Sample.opened := rfl
  have closing := @inChunks_cons_clean _ WsClient.drainDataEventsFromIngress Sample.opened
    [0x88, 0x00] (by decide +kernel) [bytes]
  have ended : (Sample.opened.drainDataEventsFromIngress [0x88, 0x00]).1 = Sample.ended := rfl
  have behind := drainDataEventsFromIngress_closed (w := Sample.ended) (by decide +kernel)
    (by decide +kernel) bytes
  rw [opened] at opening
  rw [ended] at closing
  rw [opening.1, opening.2, closing.1, closing.2]
  generalize Sample.ended = w at behind ⊢
  simp only [inChunks, behind, Except.map]
  exact ⟨rfl, trivial⟩

/-- A Close frame and one byte more than the receive buffer may hold: no call of the run fails,
and the buffer is over its limit at the end. -/
theorem inbound_unbounded :
    Sample.client.Begun ∧
      errorOf (inChunks WsClient.drainDataEventsFromIngress Sample.client
        [Sample.response, [0x88, 0x00],
          List.replicate (Sample.config.recvLimit + 1) 0]).2.2 = none ∧
      ¬ (inChunks WsClient.drainDataEventsFromIngress Sample.client
        [Sample.response, [0x88, 0x00],
          List.replicate (Sample.config.recvLimit + 1) 0]).1.Bounded := by
  have long : (List.replicate (Sample.config.recvLimit + 1) (0 : UInt8)).length =
      Sample.config.recvLimit + 1 := List.length_replicate
  generalize List.replicate (Sample.config.recvLimit + 1) (0 : UInt8) = bytes at long ⊢
  obtain ⟨clean, kept⟩ := behind_close_kept bytes
  refine ⟨Sample.client_begun, clean, ?_⟩
  rw [kept]
  rintro ⟨short, -⟩
  have limits : Sample.ended.config = Sample.config := by
    decide +kernel
  have stored : (Sample.ended.feedRecv bytes).recvBuf.length =
      Sample.ended.recvBuf.length + bytes.length := List.length_append
  have same (w : WsClient) : (w.feedRecv bytes).config = w.config := rfl
  rw [stored, same, limits] at short
  omega

end Talaris.Ws
