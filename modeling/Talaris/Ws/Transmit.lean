import Talaris.Ws.Progress

/-!
# What the client transmits

State and transmit queue of a client change together, and only in six ways (`Wire.Move`):
frames are written by the senders in `Open`, by the automatic pong before the end, and by the
Close frame that ends `Open`.  Every call of the client, successful or not, is a sequence of
such moves (`Moves`).
-/

namespace Talaris.Ws

/-- The part of a client that its peer sees. -/
structure Wire where
  state : ConnState
  tx : TxQueue

/-- A move of the transmit side. -/
inductive Wire.Move : Wire → Wire → Prop where
  | opened (tx : TxQueue) : Move ⟨.connecting, tx⟩ ⟨.isOpen, tx⟩
  | ended (state : ConnState) (tx : TxQueue) : Move ⟨state, tx⟩ ⟨.closed, tx⟩
  | sent (tx : TxQueue) (opcode : OpCode) (payload : Bytes) :
      opcode ≠ .close → (opcode.isControl = true → payload.length ≤ maxControlPayload) →
      Move ⟨.isOpen, tx⟩ ⟨.isOpen, tx.writeFrame true opcode payload⟩
  | ponged (state : ConnState) (tx : TxQueue) (payload : Bytes) :
      state = .isOpen ∨ state = .closing → payload.length ≤ maxControlPayload →
      Move ⟨state, tx⟩ ⟨state, tx.writeFrame true .pong payload⟩
  | closed (tx : TxQueue) (code : Nat) (reason : Bytes) :
      isValidEndpointSent code = true → reason.length ≤ 123 →
      Move ⟨.isOpen, tx⟩ ⟨.closing, tx.writeFrame true .close (encodeClosePayload code reason)⟩

namespace WsClient

/-- A control payload fits, also the part of it that is still to come. -/
structure Framed (w : WsClient) : Prop where
  control : w.ctlBuf.length ≤ maxControlPayload
  current : ∀ opcode, w.curOpcode = some opcode → ∃ remaining, w.parser = .payload remaining ∧
    (opcode.isControl = true → w.ctlBuf.length + remaining ≤ maxControlPayload)

/-- The second client comes from the first by moves of the transmit side. -/
structure Moves (w w' : WsClient) : Prop where
  config : w'.config = w.config
  clientKey : w'.clientKey = w.clientKey
  started : w'.handshakeStarted = w.handshakeStarted
  path : Relation.ReflTransGen Wire.Move ⟨w.state, w.tx⟩ ⟨w'.state, w'.tx⟩

theorem Moves.refl (w : WsClient) : w.Moves w := ⟨rfl, rfl, rfl, .refl⟩

theorem Moves.trans {w w' w'' : WsClient} (first : w.Moves w') (second : w'.Moves w'') :
    w.Moves w'' where
  config := second.config.trans first.config
  clientKey := second.clientKey.trans first.clientKey
  started := second.started.trans first.started
  path := first.path.trans second.path

/-- Nothing that the peer sees. -/
theorem moves_of_same {w w' : WsClient} (state : w'.state = w.state) (tx : w'.tx = w.tx)
    (config : w'.config = w.config) (clientKey : w'.clientKey = w.clientKey)
    (started : w'.handshakeStarted = w.handshakeStarted) : w.Moves w' := by
  refine ⟨config, clientKey, started, ?_⟩
  rw [state, tx]

/-- A step that keeps its client in frames moves the transmit side. -/
def Drives (w w' : WsClient) : Prop := w.Framed → w'.Framed ∧ w.Moves w'

theorem Drives.refl (w : WsClient) : w.Drives w := fun framed => ⟨framed, .refl w⟩

theorem Drives.trans {w w' w'' : WsClient} (first : w.Drives w') (second : w'.Drives w'') :
    w.Drives w'' := by
  intro framed
  obtain ⟨framed', moves⟩ := first framed
  obtain ⟨framed'', moves'⟩ := second framed'
  exact ⟨framed'', moves.trans moves'⟩

/-! ## Sending -/

theorem queueClose_moves (w : WsClient) {code : Nat} (allowed : isValidEndpointSent code = true)
    (reason : String) (short : (Text.utf8 reason.toList).length ≤ 123)
    (live : w.state ≠ .connecting) : w.Moves (w.queueClose code reason) := by
  unfold queueClose
  split
  next => exact .refl w
  next early =>
    have isOpen : w.state = .isOpen := by
      cases state : w.state <;> simp_all
    dsimp only [writeFrame]
    rw [if_pos isOpen]
    refine ⟨rfl, rfl, rfl, .single ?_⟩
    dsimp only
    rw [isOpen]
    exact .closed w.tx code _ allowed short

theorem queueClose_input (w : WsClient) (code : Nat) (reason : String) :
    (w.queueClose code reason).ctlBuf = w.ctlBuf ∧
      (w.queueClose code reason).curOpcode = w.curOpcode ∧
      (w.queueClose code reason).parser = w.parser := by
  unfold queueClose
  split
  next => exact ⟨rfl, rfl, rfl⟩
  next =>
    dsimp only [writeFrame]
    split <;> exact ⟨rfl, rfl, rfl⟩

theorem Framed.of_same {w w' : WsClient} (framed : w.Framed)
    (same : w'.ctlBuf = w.ctlBuf ∧ w'.curOpcode = w.curOpcode ∧ w'.parser = w.parser) :
    w'.Framed := by
  obtain ⟨ctlBuf, curOpcode, parser⟩ := same
  constructor
  case control => rw [ctlBuf]; exact framed.control
  case current => rw [ctlBuf, curOpcode, parser]; exact framed.current

theorem queueClose_drives (w : WsClient) {code : Nat} (allowed : isValidEndpointSent code = true)
    (reason : String) (short : (Text.utf8 reason.toList).length ≤ 123)
    (live : w.state ≠ .connecting) : w.Drives (w.queueClose code reason) := fun framed =>
  ⟨framed.of_same (w.queueClose_input code reason), w.queueClose_moves allowed reason short live⟩

theorem sendFrame_drives (w : WsClient) {opcode : OpCode} (notClose : opcode ≠ .close)
    {payload : Bytes} (short : opcode.isControl = true → payload.length ≤ maxControlPayload) :
    w.Drives (w.sendFrame opcode payload).1 := by
  unfold sendFrame assertCanSendData
  by_cases isOpen : w.state = .isOpen
  · rw [if_pos isOpen]
    refine fun framed => ⟨framed.of_same ⟨rfl, rfl, rfl⟩, rfl, rfl, rfl, .single ?_⟩
    dsimp only [writeFrame]
    rw [isOpen]
    exact .sent w.tx opcode payload notClose short
  · rw [if_neg isOpen]
    exact .refl w

theorem sendText_drives (w : WsClient) (payload : Bytes) : w.Drives (w.sendText payload).1 := by
  unfold sendText
  split
  next => exact .refl w
  next => exact w.sendFrame_drives (by decide) (by simp [OpCode.isControl])

theorem sendBinary_drives (w : WsClient) (payload : Bytes) : w.Drives (w.sendBinary payload).1 :=
  w.sendFrame_drives (by decide) (by simp [OpCode.isControl])

theorem sendPing_drives (w : WsClient) (payload : Bytes) : w.Drives (w.sendPing payload).1 := by
  unfold sendPing
  split
  next => exact .refl w
  next short => exact w.sendFrame_drives (by decide) fun _ => Nat.le_of_not_lt short

theorem sendPong_drives (w : WsClient) (payload : Bytes) : w.Drives (w.sendPong payload).1 := by
  unfold sendPong
  split
  next => exact .refl w
  next short => exact w.sendFrame_drives (by decide) fun _ => Nat.le_of_not_lt short

theorem sendClose_drives (w : WsClient) (code : Nat) (reason : Bytes) :
    w.Drives (w.sendClose code reason).1 := by
  unfold sendClose
  repeat' split
  all_goals first | exact .refl w | skip
  next _ isOpen allowed short =>
    refine fun framed => ⟨framed.of_same ⟨rfl, rfl, rfl⟩, rfl, rfl, rfl, .single ?_⟩
    dsimp only [writeFrame]
    simp only [ne_eq, Decidable.not_not] at isOpen
    rw [isOpen]
    exact .closed w.tx code reason (by simpa using allowed) (by omega)

/-! ## Receiving -/

theorem clearAfterEmit_drives (w : WsClient) : w.Drives w.clearAfterEmit := by
  intro framed
  refine ⟨?_, ?_⟩
  · have emptied {w' : WsClient} (ctlBuf : w'.ctlBuf = []) (curOpcode : w'.curOpcode = w.curOpcode)
        (parser : w'.parser = w.parser) : w'.Framed := by
      constructor
      case control => simp [ctlBuf]
      case current =>
        intro opcode current
        rw [curOpcode] at current
        obtain ⟨remaining, there, fits⟩ := framed.current opcode current
        refine ⟨remaining, parser.trans there, fun isControl => ?_⟩
        have bound := fits isControl
        rw [ctlBuf, List.length_nil]
        omega
    unfold clearAfterEmit
    repeat' split
    all_goals first | exact framed.of_same ⟨rfl, rfl, rfl⟩ | exact emptied rfl rfl rfl
  · unfold clearAfterEmit
    repeat' split
    all_goals exact moves_of_same rfl rfl rfl rfl rfl

theorem closeOnError_drives (w : WsClient) : w.Drives w.closeOnError := by
  unfold closeOnError
  split
  next =>
    exact fun framed => ⟨framed.of_same ⟨rfl, rfl, rfl⟩, rfl, rfl, rfl, .single (.ended _ _)⟩
  next => exact .refl w

theorem tryEmitBorrowedData_drives (w : WsClient) : w.Drives w.tryEmitBorrowedData.1 := by
  unfold tryEmitBorrowedData
  dsimp only
  split
  next => exact .refl w
  next ready =>
    have live : w.state ≠ .connecting := by
      intro connecting
      exact ready (.inl (by simp [connecting]))
    repeat' split
    all_goals first
      | exact .refl w
      | exact w.queueClose_drives (by decide) _ (by decide) live
      | exact fun framed =>
          ⟨framed.of_same ⟨rfl, rfl, rfl⟩, moves_of_same rfl rfl rfl rfl rfl⟩

theorem startData_drives {w : WsClient} {h : FrameHeader} (live : w.state ≠ .connecting)
    (isData : h.opcode.isControl = false) {remaining : Nat} (parser : w.parser = .payload remaining) :
    w.Drives (w.startData h).1 := by
  unfold startData
  split
  next => exact w.queueClose_drives (by decide) _ (by decide) live
  next =>
    intro framed
    refine ⟨⟨framed.control, ?_⟩, moves_of_same rfl rfl rfl rfl rfl⟩
    rintro opcode ⟨⟩
    exact ⟨remaining, parser, by simp [isData]⟩

/-- A frame starts; its header was accepted. -/
theorem onFrameStart_drives {w : WsClient} {h : FrameHeader} (live : w.state ≠ .connecting)
    (parser : w.parser = .payload h.payloadLen)
    (small : h.opcode.isControl = true → h.payloadLen ≤ maxControlPayload) :
    w.Drives (w.onFrameStart h).1 := by
  unfold onFrameStart
  split
  next => exact w.queueClose_drives (by decide) _ (by decide) live
  next =>
    split
    next isControl =>
      intro framed
      refine ⟨⟨by simp, ?_⟩, moves_of_same rfl rfl rfl rfl rfl⟩
      rintro opcode ⟨⟩
      refine ⟨h.payloadLen, parser, fun _ => ?_⟩
      simpa using small isControl
    next isData =>
      rw [Bool.not_eq_true] at isData
      repeat' split
      all_goals first
        | exact w.queueClose_drives (by decide) _ (by decide) live
        | exact startData_drives live isData parser
        | skip
      next =>
        refine Drives.trans ?_ (startData_drives live isData parser)
        exact fun framed =>
          ⟨framed.of_same ⟨rfl, rfl, rfl⟩, moves_of_same rfl rfl rfl rfl rfl⟩

theorem isValidEndpointSent_of_parsed {payload reason : Bytes} {code : Nat}
    (parsed : parseClosePayload payload = .ok (some (code, reason))) :
    isValidEndpointSent code = true := by
  unfold parseClosePayload at parsed
  split at parsed
  next => simp at parsed
  next => simp at parsed
  next =>
    dsimp only at parsed
    split at parsed
    next => simp at parsed
    next accepted =>
      split at parsed
      next => simp at parsed
      next =>
        simp only [Except.ok.injEq, Option.some.injEq, Prod.mk.injEq] at parsed
        rw [← parsed.1]
        rw [Bool.not_eq_true', Bool.not_eq_false] at accepted
        exact accepted

/-- Frames are read in these states. -/
def Live (w : WsClient) : Prop := w.state = .isOpen ∨ w.state = .closing

theorem Live.not_connecting {w : WsClient} (live : w.Live) : w.state ≠ .connecting := by
  rcases live with state | state <;> simp [state]

theorem ended_drives (w : WsClient) : w.Drives { w with state := .closed } := fun framed =>
  ⟨framed.of_same ⟨rfl, rfl, rfl⟩, rfl, rfl, rfl, .single (.ended _ _)⟩

theorem queueClose_closing {w : WsClient} (live : w.Live) (code : Nat) (reason : String) :
    (w.queueClose code reason).state = .closing := by
  unfold queueClose
  rcases live with isOpen | closing
  · simp [isOpen, writeFrame]
  · simp [closing]

theorem onReceivedClose_drives {w : WsClient} (live : w.Live) : w.Drives w.onReceivedClose.1 := by
  unfold onReceivedClose
  split
  next =>
    have queued : w.Drives (w.queueClose CloseCode.protocolError.asU16 "bad close payload") :=
      w.queueClose_drives (by decide) _ (by decide) live.not_connecting
    have state := queueClose_closing live CloseCode.protocolError.asU16 "bad close payload"
    generalize w.queueClose CloseCode.protocolError.asU16 "bad close payload" = w₁ at queued state
    refine queued.trans fun framed => ⟨framed.of_same ⟨rfl, rfl, rfl⟩, ?_⟩
    exact moves_of_same state.symm rfl rfl rfl rfl
  next parsed payload =>
    have echoes {code : Nat} (allowed : isValidEndpointSent code = true) :
        w.Drives { (if w.state = .isOpen then w.queueClose code "" else w) with state := .closed } := by
      refine Drives.trans ?_ (ended_drives _)
      split
      next => exact w.queueClose_drives allowed "" (by decide) live.not_connecting
      next => exact .refl w
    cases parsed with
    | none => exact echoes (by decide)
    | some found => exact echoes (isValidEndpointSent_of_parsed payload)

theorem endControl_drives {w : WsClient} (live : w.Live) (opcode : OpCode) :
    w.Drives (w.endControl opcode).1 := by
  have received := onReceivedClose_drives live
  unfold endControl
  cases opcode with
  | ping =>
      dsimp only
      split
      next =>
        exact fun framed => ⟨framed.of_same ⟨rfl, rfl, rfl⟩, rfl, rfl, rfl,
          .single (.ponged w.state w.tx w.ctlBuf live framed.control)⟩
      next => exact .refl w
  | close =>
      dsimp only
      split <;> simp_all
  | continuation | text | binary | pong => exact .refl w

/-- The end of a frame; the parser has left its payload. -/
theorem onFrameEnd_drives {w : WsClient} (live : w.Live)
    (control : w.ctlBuf.length ≤ maxControlPayload) :
    w.onFrameEnd.1.Framed ∧ w.Moves w.onFrameEnd.1 := by
  unfold onFrameEnd
  split
  next none => exact ⟨⟨control, by simp [none]⟩, .refl w⟩
  next opcode current =>
    dsimp only
    have ended : WsClient.Framed { w with curOpcode := none } := ⟨control, by simp⟩
    have taken : WsClient.Framed { w with curOpcode := none, msgOpcode := none } :=
      ⟨control, by simp⟩
    split
    next =>
      obtain ⟨framed, moves⟩ :=
        endControl_drives (w := { w with curOpcode := none }) live opcode ended
      exact ⟨framed, moves.config, moves.clientKey, moves.started, moves.path⟩
    next =>
      repeat' split
      all_goals first
        | exact ⟨ended, moves_of_same rfl rfl rfl rfl rfl⟩
        | exact ⟨taken, moves_of_same rfl rfl rfl rfl rfl⟩
        | skip
      next =>
        have refused : Drives { w with curOpcode := none, msgOpcode := none }
            (queueClose { w with curOpcode := none, msgOpcode := none }
              CloseCode.invalidPayload.asU16 "invalid utf-8") :=
          queueClose_drives _ (by decide) _ (by decide) live.not_connecting
        obtain ⟨framed, moves⟩ := refused taken
        exact ⟨framed, moves.config, moves.clientKey, moves.started, moves.path⟩

/-- Payload bytes reduce what is still to come. -/
theorem takePayload_drives {w : WsClient} {slice : Bytes} {remaining : Nat}
    (parser : w.parser = .payload remaining)
    (fits : ∀ opcode, w.curOpcode = some opcode → opcode.isControl = true →
      w.ctlBuf.length + slice.length + remaining ≤ maxControlPayload)
    (control : w.ctlBuf.length ≤ maxControlPayload) :
    (w.takePayload slice).Framed ∧ w.Moves (w.takePayload slice) := by
  unfold takePayload
  split
  next none => exact ⟨⟨control, by simp [none]⟩, .refl w⟩
  next opcode current =>
    split
    next isControl =>
      have bound := fits opcode current isControl
      refine ⟨⟨?_, ?_⟩, moves_of_same rfl rfl rfl rfl rfl⟩
      · rw [List.length_append]
        omega
      · intro other same
        refine ⟨remaining, parser, fun _ => ?_⟩
        rw [List.length_append]
        exact bound
    next isData =>
      refine ⟨⟨control, ?_⟩, moves_of_same rfl rfl rfl rfl rfl⟩
      intro other same
      refine ⟨remaining, parser, fun isControl => ?_⟩
      rw [current, Option.some.injEq] at same
      exact absurd (same ▸ isControl) isData

theorem parseHeader_control {buf : Bytes} {header : FrameHeader} {size : Nat}
    (parsed : parseHeader buf = .ok (some (header, size))) (isControl : header.opcode.isControl = true) :
    header.payloadLen ≤ maxControlPayload := by
  unfold parseHeader at parsed
  dsimp only at parsed
  repeat' split at parsed
  all_goals
    simp only [Except.ok.injEq, Option.some.injEq, Prod.mk.injEq, reduceCtorEq] at parsed
  all_goals
    obtain ⟨rfl, -⟩ := parsed
    simp_all

/-- What a call of the parser does, as far as payloads are concerned. -/
inductive Fed : ParserState → ParserState → Except FrameError FeedOutcome → Prop where
  | failed {parser parser' : ParserState} (e : FrameError) :
      (∀ remaining, parser ≠ .payload remaining) → Fed parser parser' (.error e)
  | inHeader {parser parser' : ParserState} (consumed : Nat) :
      (∀ remaining, parser ≠ .payload remaining) → Fed parser parser' (.ok (.needMore consumed))
  | started {parser : ParserState} (consumed : Nat) (h : FrameHeader) :
      (∀ remaining, parser ≠ .payload remaining) →
      (h.opcode.isControl = true → h.payloadLen ≤ maxControlPayload) →
      Fed parser (.payload h.payloadLen) (.ok (.event consumed (.frameStart h)))
  | inPayload (remaining consumed : Nat) :
      Fed (.payload remaining) (.payload remaining) (.ok (.needMore consumed))
  | took (remaining consumed : Nat) (slice : Bytes) : slice.length ≤ remaining →
      Fed (.payload remaining) (.payload (remaining - slice.length))
        (.ok (.event consumed (.payloadChunk slice)))
  | ended (remaining consumed : Nat) :
      Fed (.payload remaining) .idle (.ok (.event consumed .frameEnd))

theorem parseFilled_fed {parser : ParserState} (outside : ∀ remaining, parser ≠ .payload remaining)
    (filled : Bytes) (consumed : Nat) :
    Fed parser (parseFilled filled consumed).1 (parseFilled filled consumed).2 := by
  unfold parseFilled
  split
  next => exact .failed _ outside
  next => exact .inHeader _ outside
  next header size found =>
    split
    next => exact .failed _ outside
    next => exact .started consumed header outside (parseHeader_control found)

theorem feedHeader_fed {parser : ParserState} (outside : ∀ remaining, parser ≠ .payload remaining)
    (filled bytes : Bytes) (consumed : Nat) :
    Fed parser (feedHeader filled bytes consumed).1 (feedHeader filled bytes consumed).2 := by
  fun_induction feedHeader filled bytes consumed with
  | case1 filled bytes consumed full => exact parseFilled_fed outside filled consumed
  | case2 => exact .inHeader _ outside
  | case3 filled bytes consumed short want take some ih => exact ih

theorem feedOne_fed (parser : ParserState) (bytes : Bytes) :
    Fed parser (feedOne parser bytes).1 (feedOne parser bytes).2 := by
  unfold feedOne
  split
  next => exact feedHeader_fed (by simp) [] bytes 0
  next filled => exact feedHeader_fed (by simp) filled bytes 0
  next remaining =>
    split
    next => exact .ended remaining 0
    next =>
      split
      next => exact .inPayload remaining 0
      next =>
        have size : (bytes.take (min bytes.length remaining)).length = min bytes.length remaining := by
          simp
        have took := Fed.took remaining (min bytes.length remaining)
          (bytes.take (min bytes.length remaining)) (by rw [size]; exact Nat.min_le_right _ _)
        rw [size] at took
        exact took

theorem Moves.repositioned {w w' : WsClient} {parser : ParserState} {recvBuf : Bytes}
    (moves : Moves { w with parser, recvBuf } w') : w.Moves w' :=
  ⟨moves.config, moves.clientKey, moves.started, moves.path⟩

/-- Outside of a payload no frame is current. -/
theorem Framed.no_current {w : WsClient} (framed : w.Framed)
    (outside : ∀ remaining, w.parser ≠ .payload remaining) : w.curOpcode = none := by
  cases current : w.curOpcode with
  | none => rfl
  | some opcode =>
      obtain ⟨remaining, inside, -⟩ := framed.current opcode current
      exact absurd inside (outside remaining)

theorem advanceFrame_drives {w : WsClient} (live : w.Live) : w.Drives w.advanceFrame.1 := by
  intro framed
  have fed := feedOne_fed w.parser w.recvBuf
  unfold advanceFrame
  generalize feedOne w.parser w.recvBuf = out at fed
  obtain ⟨parser, outcome⟩ := out
  dsimp only at fed
  -- outside of a payload the position in the input does not matter
  have outside {w' : WsClient} (none : w.curOpcode = none) (ctlBuf : w'.ctlBuf = w.ctlBuf)
      (curOpcode : w'.curOpcode = w.curOpcode) : w'.Framed :=
    ⟨ctlBuf ▸ framed.control, by simp [curOpcode, none]⟩
  generalize origin : w.parser = before at fed
  cases fed with
  | failed e header =>
      have none := framed.no_current (origin ▸ header)
      have refused : Drives { w with parser } (queueClose { w with parser }
          CloseCode.protocolError.asU16 "frame parse error") :=
        queueClose_drives _ (by decide) _ (by decide) live.not_connecting
      obtain ⟨framed', moves⟩ := refused (outside none rfl rfl)
      exact ⟨framed', moves.repositioned⟩
  | inHeader consumed header =>
      exact ⟨outside (framed.no_current (origin ▸ header)) rfl rfl,
        moves_of_same rfl rfl rfl rfl rfl⟩
  | started consumed h header small =>
      have none := framed.no_current (origin ▸ header)
      obtain ⟨framed', moves⟩ := onFrameStart_drives
        (w := { w with parser := .payload h.payloadLen, recvBuf := w.recvBuf.drop consumed })
        live.not_connecting rfl small (outside none rfl rfl)
      have moved := moves.repositioned
      dsimp only
      split <;> simp_all
  | inPayload remaining consumed =>
      exact ⟨framed.of_same ⟨rfl, rfl, origin.symm⟩, moves_of_same rfl rfl rfl rfl rfl⟩
  | took remaining consumed slice short =>
      have fits (opcode : OpCode) (current : w.curOpcode = some opcode)
          (isControl : opcode.isControl = true) :
          w.ctlBuf.length + slice.length + (remaining - slice.length) ≤ maxControlPayload := by
        obtain ⟨left, same, bound⟩ := framed.current opcode current
        rw [origin, ParserState.payload.injEq] at same
        have enough := bound isControl
        omega
      obtain ⟨framed', moves⟩ := takePayload_drives
        (w := { w with parser := .payload (remaining - slice.length),
                       recvBuf := w.recvBuf.drop consumed }) rfl fits framed.control
      exact ⟨framed', moves.repositioned⟩
  | ended remaining consumed =>
      obtain ⟨framed', moves⟩ := onFrameEnd_drives
        (w := { w with parser := .idle, recvBuf := w.recvBuf.drop consumed }) live framed.control
      have moved := moves.repositioned
      dsimp only
      split <;> simp_all

/-! ## Polling -/

section Polling

variable [AcceptDigest]

theorem advanceHandshake_drives {w : WsClient} (connecting : w.state = .connecting) :
    w.Drives w.advanceHandshake.1 := by
  unfold advanceHandshake
  repeat' split
  all_goals first | exact .refl w | skip
  next =>
    refine fun framed => ⟨framed.of_same ⟨rfl, rfl, rfl⟩, rfl, rfl, rfl, .single ?_⟩
    rw [connecting]
    exact .opened w.tx

theorem advance_drives (w : WsClient) : w.Drives w.advance.1 := by
  unfold advance
  split
  next connecting => exact advanceHandshake_drives connecting
  next isOpen => exact advanceFrame_drives (.inl isOpen)
  next closing => exact advanceFrame_drives (.inr closing)
  next => exact .refl w

omit [AcceptDigest] in
theorem emitted_drives (w : WsClient) (kind : EmitKind) : w.Drives (w.emitted kind).1 :=
  fun framed => ⟨framed.of_same ⟨rfl, rfl, rfl⟩, moves_of_same rfl rfl rfl rfl rfl⟩

theorem pollTurn_drives (w : WsClient) : w.Drives w.pollTurn.1 := by
  unfold pollTurn
  split
  next => exact .refl w
  next =>
    have tried := w.tryEmitBorrowedData_drives
    split
    next w₁ kind found =>
      rw [found] at tried
      exact tried.trans (w₁.emitted_drives kind)
    next w₁ found =>
      rw [found] at tried
      exact tried
    next w₁ e found =>
      rw [found] at tried
      exact tried.trans w₁.closeOnError_drives
    next w₁ found =>
      rw [found] at tried
      refine tried.trans ?_
      have advanced := w₁.advance_drives
      unfold afterAdvance
      split
      next w₂ kind stepped =>
        rw [stepped] at advanced
        exact advanced.trans (w₂.emitted_drives kind)
      next w₂ stepped =>
        rw [stepped] at advanced
        exact advanced
      next w₂ stepped =>
        rw [stepped] at advanced
        exact advanced
      next w₂ e stepped =>
        rw [stepped] at advanced
        exact advanced.trans w₂.closeOnError_drives

omit [AcceptDigest] in
theorem queueFastDataFrameError_drives {w : WsClient} (live : w.state ≠ .connecting)
    (e : FastDataFrameError) : w.Drives (w.queueFastDataFrameError e).1 := by
  cases e <;> exact w.queueClose_drives (by decide) _ (by decide) live

omit [AcceptDigest] in
theorem feedRecv_drives (w : WsClient) (bytes : Bytes) : w.Drives (w.feedRecv bytes) :=
  fun framed => ⟨framed.of_same ⟨rfl, rfl, rfl⟩, moves_of_same rfl rfl rfl rfl rfl⟩

theorem drives_respected : Respected Drives where
  refl := .refl
  trans := .trans
  clear := clearAfterEmit_drives
  feed := feedRecv_drives
  turn {w} _ := w.pollTurn_drives
  read _ _ _ _ framed := ⟨framed.of_same ⟨rfl, rfl, rfl⟩, moves_of_same rfl rfl rfl rfl rfl⟩
  refuse e _ isOpen _ := queueFastDataFrameError_drives (by simp [isOpen]) e

end Polling

end WsClient

end Talaris.Ws
