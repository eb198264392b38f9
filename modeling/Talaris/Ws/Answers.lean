import Talaris.Ws.Agreement
import Talaris.Ws.Transmit

/-!
# What the client answers

Reading has two effects on the transmit side: an event is answered (a Ping with a Pong, a Close
with its echo), and a failure ends the client with a Close frame of its own.  `Answers` states
both for any list of events, and every poll and drain keeps to it, also after an error.
-/

namespace Talaris.Ws

open Talaris.Basis

/-- The code of the Close frame that answers one with this code; an empty payload reads as 1005,
which no payload can carry. -/
def echoCode (code : Nat) : Nat := if code = 1005 then CloseCode.normal.asU16 else code

/-- The frames with which a client in this state answers an event. -/
def Event.answer (config : WsConfig) (state : ConnState) : Event → List OutFrame
  | .ping payload => if config.autoPong then [⟨true, .pong, payload⟩] else []
  | .close code _ =>
      if state = .closing then [] else [⟨true, .close, encodeClosePayload (echoCode code) []⟩]
  | .handshakeComplete | .text _ | .binary _ | .pong _ => []

/-- The code of the Close frame for a failure. -/
def WsError.closeCode : WsError → Nat
  | .utf8Invalid => CloseCode.invalidPayload.asU16
  | .messageTooLarge => CloseCode.messageTooBig.asU16
  | .frame _ | .handshake _ | .http _ | .close _ | .protocol _ | .invalidState _ | .internal _ =>
      CloseCode.protocolError.asU16

/-- The frames of a failure: a Close frame when it moves the client to `Closing`. -/
def Farewell (before after : ConnState) (error : Option WsError) (frames : List OutFrame) : Prop :=
  match error with
  | none => frames = []
  | some e =>
      if after = .closing ∧ before ≠ .closing then
        ∃ reason : String,
          frames = [⟨true, .close, encodeClosePayload e.closeCode (Text.utf8 reason.toList)⟩]
      else frames = []

/-- The frames queued while events were read and perhaps an error was met. -/
def Answers (config : WsConfig) (before after : ConnState) (events : List Event)
    (error : Option WsError) (added : List OutFrame) : Prop :=
  ∃ farewell, added = events.flatMap (Event.answer config before) ++ farewell ∧
    Farewell before after error farewell

theorem Answers.nothing (config : WsConfig) (before after : ConnState) :
    Answers config before after [] none [] := ⟨[], rfl, rfl⟩

/-- An event is answered. -/
theorem Answers.event {config : WsConfig} {before after : ConnState} {event : Event} :
    Answers config before after [event] none (event.answer config before) :=
  ⟨[], by simp, rfl⟩

/-- A failure that does not move the client to `Closing` is silent. -/
theorem Answers.silent {config : WsConfig} {before after : ConnState} {e : WsError}
    (unmoved : after = .closing → before = .closing) :
    Answers config before after [] (some e) [] := by
  refine ⟨[], rfl, ?_⟩
  rw [Farewell, if_neg]
  exact fun moved => moved.2 (unmoved moved.1)

theorem Answers.farewell {config : WsConfig} {before after : ConnState} {e : WsError}
    {code : Nat} (closing : after = .closing) (live : before ≠ .closing)
    (same : code = e.closeCode) (reason : String) :
    Answers config before after [] (some e)
      [⟨true, .close, encodeClosePayload code (Text.utf8 reason.toList)⟩] := by
  refine ⟨_, rfl, ?_⟩
  rw [Farewell, if_pos ⟨closing, live⟩]
  exact ⟨reason, by rw [same]⟩

/-- Reading goes on in the state after an event, which is `Closing` only if the state before was. -/
theorem Answers.cons {config : WsConfig} {before middle after : ConnState} (event : Option Event)
    {events : List Event} {error : Option WsError} {added : List OutFrame}
    (same : middle = .closing ↔ before = .closing)
    (rest : Answers config middle after events error added) :
    Answers config before after (event.toList ++ events) error
      (event.toList.flatMap (Event.answer config before) ++ added) := by
  obtain ⟨farewell, rfl, ends⟩ := rest
  refine ⟨farewell, ?_, ?_⟩
  · have answers : Event.answer config middle = Event.answer config before := by
      funext event
      cases event <;> simp only [Event.answer, same]
    rw [List.flatMap_append, List.append_assoc, answers]
  · unfold Farewell at ends ⊢
    simpa only [ne_eq, same] using ends

/-! ## The decoder -/

section Decoder

variable {config : WsConfig}

/-- What a verdict adds to the outbound frames. -/
def Verdict.Answered (config : WsConfig) (c : Core) : Verdict → Prop
  | .needMore | .violation => True
  | .frame next _ event =>
      next.outbound = c.outbound ++ event.toList.flatMap (Event.answer config c.state) ∧
        (next.state = .closed ∨ (next.state = .closing ↔ c.state = .closing))
  | .fail next e =>
      ∃ added, next.outbound = c.outbound ++ added ∧
        Answers config c.state next.state [] (some e) added

theorem Core.refuse_answered {c : Core} (live : c.Live) {code : Nat} {reason : String}
    {e : WsError} (same : code = e.closeCode) :
    (Verdict.fail (c.queueClose code reason) e).Answered config c := by
  simp only [Verdict.Answered, queueClose_closing live]
  rcases live with isOpen | closing
  · refine ⟨[⟨true, .close, encodeClosePayload code (Text.utf8 reason.toList)⟩], ?_, ?_⟩
    · simp [queueClose, write, isOpen]
    · exact .farewell rfl (by simp [isOpen]) same reason
  · exact ⟨[], by simp [queueClose, closing], .silent fun _ => closing⟩

theorem echoCode_parsed {payload reason : Bytes} {code : Nat}
    (parsed : parseClosePayload payload = .ok (some (code, reason))) : echoCode code = code := by
  have allowed := WsClient.isValidEndpointSent_of_parsed parsed
  unfold echoCode
  split
  next unset =>
    subst unset
    exact absurd allowed (by decide)
  next => rfl

theorem utf8_empty : Text.utf8 "".toList = [] := rfl

/-- The echo of a Close frame. -/
theorem Core.echo_answered {c : Core} (live : c.Live) {code received : Nat} (reason : Bytes)
    (size : Nat) (same : code = echoCode received) :
    (Verdict.frame { (if c.state = .isOpen then c.queueClose code "" else c) with state := .closed }
      size (some (.close received reason))).Answered config c := by
  refine ⟨?_, .inl rfl⟩
  dsimp only [Option.toList_some]
  rw [List.flatMap_singleton]
  rcases live with isOpen | closing
  · rw [if_pos isOpen, queueClose, if_neg (by simp [isOpen])]
    simp only [write, isOpen, Event.answer, if_pos, utf8_empty, same]
    rfl
  · simp [closing, Event.answer]

theorem Core.control_answered {c : Core} (live : c.Live) (opcode : OpCode) (payload : Bytes)
    (size : Nat) : (c.control config opcode payload size).Answered config c := by
  unfold control
  cases opcode with
  | ping =>
      dsimp only
      split
      next pongs => exact ⟨by simp [write, Event.answer, pongs], .inr Iff.rfl⟩
      next quiet => exact ⟨by simp [Event.answer, quiet], .inr Iff.rfl⟩
  | close =>
      dsimp only
      cases parsed : parseClosePayload payload with
      | error e =>
          have answered : (Verdict.fail
              (c.queueClose CloseCode.protocolError.asU16 "bad close payload")
              (.close e)).Answered config c := refuse_answered live rfl
          simp only [Verdict.Answered, queueClose_closing live] at answered ⊢
          exact answered
      | ok found =>
          cases found with
          | none => exact echo_answered live [] size rfl
          | some found =>
              obtain ⟨code, reason⟩ := found
              exact echo_answered live reason size (echoCode_parsed parsed).symm
  | pong | continuation | text | binary => exact ⟨by simp [Event.answer], .inr Iff.rfl⟩

theorem Core.data_answered {c : Core} (live : c.Live) (kind : DataKind) (acc : Bytes)
    (h : FrameHeader) (headerLen : Nat) (r : Bytes) :
    (c.data config kind acc h headerLen r).Answered config c := by
  have quiet (payload : Bytes) : Event.answer config c.state (kind.event payload) = [] := by
    cases kind <;> rfl
  unfold data
  dsimp only
  split
  next => exact refuse_answered live rfl
  next =>
    split
    next => trivial
    next =>
      split
      next => exact ⟨by simp, .inr Iff.rfl⟩
      next =>
        split
        next => exact refuse_answered live rfl
        next => exact ⟨by simp [quiet], .inr Iff.rfl⟩

theorem Core.body_answered {c : Core} (live : c.Live) (h : FrameHeader) (headerLen : Nat)
    (r : Bytes) : (c.body config h headerLen r).Answered config c := by
  unfold body
  split
  next => exact refuse_answered live rfl
  next =>
    split
    next =>
      split
      next => trivial
      next => exact control_answered live _ _ _
    next =>
      split
      next => exact refuse_answered live rfl
      next => exact data_answered live _ _ _ _ _
      next => exact refuse_answered live rfl
      next => exact data_answered live _ _ _ _ _

variable [AcceptDigest] {clientKey : Text}

theorem Core.step_answered (c : Core) (fault : Fault) (mode : Mode) (r : Bytes) :
    (c.step config clientKey fault mode r).Answered config c := by
  have framed (live : c.Live) : (c.step config clientKey fault mode r).Answered config c := by
    rw [step_live live]
    split
    next => exact refuse_answered live rfl
    next =>
      split
      next => trivial
      next =>
        unfold sound
        split
        next => exact body_answered live _ _ _
        next => trivial
  cases state : c.state with
  | closed => simp [step, state, Verdict.Answered]
  | isOpen => exact framed (.inl state)
  | closing => exact framed (.inr state)
  | connecting =>
      simp only [step, state, handshake]
      split
      next => exact ⟨[], by simp, .silent (by simp)⟩
      next => trivial
      next =>
        split
        next => exact ⟨[], by simp, .silent (by simp)⟩
        next => exact ⟨by simp [Event.answer], .inr (by simp [state])⟩

/-- A closed client reads nothing. -/
theorem decode_closed {fault : Fault} {mode : Mode} {c : Core} (closed : c.state = .closed)
    (r : Bytes) : decode config clientKey fault mode c r = ⟨[], c, r, none⟩ :=
  decode_needMore (by simp [Core.step, closed])

variable (config clientKey) in
/-- The outbound frames of a reading. -/
theorem decode_answers (fault : Fault) (mode : Mode) (c : Core) (r : Bytes) :
    let d := decode config clientKey fault mode c r
    ∃ added, d.core.outbound = c.outbound ++ added ∧
      Answers config c.state d.core.state d.events d.error added := by
  dsimp only
  fun_induction decode config clientKey fault mode c r with
  | case1 mode c r => exact ⟨[], by simp, .nothing config c.state c.state⟩
  | case2 mode c r => exact ⟨[], by simp, .nothing config c.state c.state⟩
  | case3 mode c r next e stepped =>
      have answered : (c.step config clientKey fault mode r).Answered config c :=
        c.step_answered fault mode r
      rw [stepped] at answered
      exact answered
  | case4 mode c r next size event stepped ih =>
      have answered : (c.step config clientKey fault mode r).Answered config c :=
        c.step_answered fault mode r
      rw [stepped] at answered
      obtain ⟨outbound, state⟩ := answered
      have listed : [Item.mk event (isDirect config mode c r)].filterMap Item.event =
          event.toList := by cases event <;> rfl
      rw [Decoded.events_prepend, listed]
      rcases state with closed | same
      · rw [decode_closed closed]
        refine ⟨_, outbound, [], by simp [Decoded.events], rfl⟩
      · obtain ⟨added, queued, answers⟩ := ih
        refine ⟨_, ?_, answers.cons event same⟩
        rw [← List.append_assoc, ← outbound]
        exact queued

end Decoder

/-! ## Polling, whatever the client holds -/

namespace WsClient

/-- Nothing that the peer or a later step of the same reading could see. -/
structure Unmoved (w w' : WsClient) : Prop where
  config : w'.config = w.config
  state : w'.state = w.state
  tx : w'.tx = w.tx

theorem Unmoved.refl (w : WsClient) : w.Unmoved w := ⟨rfl, rfl, rfl⟩

theorem Unmoved.trans {w w' w'' : WsClient} (first : w.Unmoved w') (second : w'.Unmoved w'') :
    w.Unmoved w'' where
  config := second.config.trans first.config
  state := second.state.trans first.state
  tx := second.tx.trans first.tx

/-- The second client has read the events, or failed, and answered. -/
structure Reacts (w w' : WsClient) (events : List Event) (error : Option WsError) : Prop where
  config : w'.config = w.config
  kept : error = none → w'.state = .closed ∨ (w'.state = .closing ↔ w.state = .closing)
  answers : ∃ added, w'.tx.outbound = w.tx.outbound ++ added ∧
    Answers w.config w.state w'.state events error added

theorem Unmoved.reacts {w w' : WsClient} (unmoved : w.Unmoved w') : w.Reacts w' [] none :=
  ⟨unmoved.config, fun _ => .inr (by rw [unmoved.state]), [], by simp [unmoved.tx],
    .nothing _ _ _⟩

theorem Unmoved.trans_reacts {w w' w'' : WsClient} {events : List Event} {error : Option WsError}
    (unmoved : w.Unmoved w') (reacts : w'.Reacts w'' events error) : w.Reacts w'' events error := by
  obtain ⟨config, state, tx⟩ := unmoved
  obtain ⟨config', kept, answers⟩ := reacts
  rw [config, state, tx] at answers
  rw [state] at kept
  exact ⟨config'.trans config, kept, answers⟩

/-- An event that asks for no answer. -/
theorem Unmoved.quiet {w w' : WsClient} (unmoved : w.Unmoved w') {event : Event}
    (quiet : event.answer w.config w.state = []) : w.Reacts w' [event] none := by
  refine ⟨unmoved.config, fun _ => .inr (by rw [unmoved.state]), [], by simp [unmoved.tx], ?_⟩
  rw [← quiet]
  exact .event

theorem queueClose_config (w : WsClient) (code : Nat) (reason : String) :
    (w.queueClose code reason).config = w.config := by
  unfold queueClose
  split
  next => rfl
  next =>
    dsimp only [writeFrame]
    split <;> rfl

@[simp] theorem closeOnError_config (w : WsClient) : w.closeOnError.config = w.config := by
  unfold closeOnError
  split <;> rfl

@[simp] theorem closeOnError_tx (w : WsClient) : w.closeOnError.tx = w.tx := by
  unfold closeOnError
  split <;> rfl

theorem closeOnError_closing (w : WsClient) :
    w.closeOnError.state = .closing ↔ w.state = .closing := by
  unfold closeOnError
  split <;> simp_all

/-- A failure without a Close frame. -/
theorem Unmoved.fails {w w' : WsClient} (unmoved : w.Unmoved w') (e : WsError) :
    w.Reacts w'.closeOnError [] (some e) := by
  refine ⟨by simp [unmoved.config], by simp, [], by simp [unmoved.tx], .silent fun closing => ?_⟩
  rw [closeOnError_closing, unmoved.state] at closing
  exact closing

theorem queueClose_sends {w : WsClient} (isOpen : w.state = .isOpen) (code : Nat)
    (reason : String) :
    (w.queueClose code reason).tx.outbound =
      w.tx.outbound ++ [⟨true, .close, encodeClosePayload code (Text.utf8 reason.toList)⟩] := by
  simp [queueClose, isOpen, writeFrame]

theorem queueClose_ended {w : WsClient} (closing : w.state = .closing) (code : Nat)
    (reason : String) : w.queueClose code reason = w := by
  simp [queueClose, closing]

/-- A failure with its Close frame. -/
theorem refuse_reacts {w : WsClient} (live : w.Live) {code : Nat} {reason : String} {e : WsError}
    (same : code = e.closeCode) :
    w.Reacts (w.queueClose code reason).closeOnError [] (some e) := by
  refine ⟨by simp [queueClose_config], by simp, ?_⟩
  have state := (closeOnError_closing _).mpr (queueClose_closing live code reason)
  rw [state, closeOnError_tx]
  rcases live with isOpen | closing
  · exact ⟨_, queueClose_sends isOpen code reason, .farewell rfl (by simp [isOpen]) same reason⟩
  · exact ⟨[], by simp [queueClose_ended closing], .silent fun _ => closing⟩

theorem Unmoved.refuse {w w' : WsClient} (unmoved : w.Unmoved w') (live : w.Live) {code : Nat}
    {reason : String} {e : WsError} (same : code = e.closeCode) :
    w.Reacts (w'.queueClose code reason).closeOnError [] (some e) := by
  refine unmoved.trans_reacts (refuse_reacts ?_ same)
  unfold Live
  rw [unmoved.state]
  exact live

/-! ### Steps of the receive side -/

/-- What `try_emit_borrowed_data` does. -/
def BorrowReacts (w : WsClient) : WsClient × Except WsError BorrowedResult → Prop
  | (w', .ok (.emit kind)) => w.Unmoved w' ∧ (kind = .borrowedText ∨ kind = .borrowedBinary)
  | (w', .ok .waitForMore) | (w', .ok .fallback) => w.Unmoved w'
  | (w', .error e) => w.Reacts w'.closeOnError [] (some e)

theorem tryEmitBorrowedData_reacts (w : WsClient) : w.BorrowReacts w.tryEmitBorrowedData := by
  unfold tryEmitBorrowedData
  dsimp only
  split
  next => exact .refl w
  next ready =>
    have live : w.Live := by
      refine .inl ?_
      by_contra other
      exact ready (.inl other)
    repeat' split
    all_goals first
      | exact Unmoved.refl w
      | exact refuse_reacts live rfl
      | exact ⟨⟨rfl, rfl, rfl⟩, by simp⟩

/-- What a step does to a client that is open or closing, when its result tells success. -/
def StepReacts {α : Type} (w : WsClient) : WsClient × Except WsError α → Prop
  | (w', .ok _) => w.Unmoved w'
  | (w', .error e) => w.Reacts w'.closeOnError [] (some e)

theorem startData_reacts {w : WsClient} (live : w.Live) (h : FrameHeader) :
    w.StepReacts (w.startData h) := by
  unfold startData
  split
  next => exact refuse_reacts live rfl
  next => exact ⟨rfl, rfl, rfl⟩

theorem onFrameStart_reacts {w : WsClient} (live : w.Live) (h : FrameHeader) :
    w.StepReacts (w.onFrameStart h) := by
  unfold onFrameStart
  repeat' split
  all_goals first
    | exact refuse_reacts live rfl
    | exact Unmoved.mk rfl rfl rfl
    | exact startData_reacts live h
    | skip
  next =>
    have started := startData_reacts
      (w := { w with msgOpcode := some h.opcode, msgBuf := [] }) live h
    generalize startData _ h = out at started
    obtain ⟨w', result⟩ := out
    cases result with
    | ok _ => exact ⟨started.config, started.state, started.tx⟩
    | error e => exact ⟨started.config, started.kept, started.answers⟩

/-- The end of a frame: the event, if there is one. -/
def EndReacts (w : WsClient) : WsClient × Except WsError (Option EmitKind) → Prop
  | (w', .ok none) => w.Unmoved w'
  | (w', .ok (some kind)) => w.Reacts w' [w'.buildEvent kind] none
  | (w', .error e) => w.Reacts w'.closeOnError [] (some e)

/-- The echo of a Close frame. -/
theorem echo_reacts {w : WsClient} (live : w.Live) {code received : Nat} (reason : Bytes)
    (same : code = echoCode received) :
    w.Reacts { (if w.state = .isOpen then w.queueClose code "" else w) with state := .closed }
      [.close received reason] none := by
  constructor
  case config =>
    dsimp only
    split
    next => exact w.queueClose_config code ""
    next => rfl
  case kept => exact fun _ => .inl rfl
  case answers =>
    refine ⟨_, ?_, .event⟩
    dsimp only
    rcases live with isOpen | closing
    · rw [if_pos isOpen, queueClose_sends isOpen, utf8_empty]
      simp [Event.answer, isOpen, same]
    · simp [Event.answer, closing]

theorem onReceivedClose_reacts {w : WsClient} (live : w.Live) :
    match w.onReceivedClose with
    | (w', .ok ()) => w.Reacts w' [w'.buildEvent .close] none
    | (w', .error e) => w.Reacts w'.closeOnError [] (some e) := by
  unfold onReceivedClose
  cases parsed : parseClosePayload w.ctlBuf with
  | error e =>
      have refused : w.Reacts
          (w.queueClose CloseCode.protocolError.asU16 "bad close payload").closeOnError []
          (some (.close e)) := refuse_reacts live rfl
      have closing := queueClose_closing live CloseCode.protocolError.asU16 "bad close payload"
      simp only [closeOnError, closing, ne_eq, not_true_eq_false, if_false] at refused ⊢
      exact ⟨refused.config, by simp, closing ▸ refused.answers⟩
  | ok found =>
      have ctlBuf (code : Nat) :
          (if w.state = .isOpen then w.queueClose code "" else w).ctlBuf = w.ctlBuf := by
        split <;> simp
      cases found with
      | none =>
          have event : buildEvent { (if w.state = .isOpen then
              w.queueClose CloseCode.normal.asU16 "" else w) with state := .closed } .close =
              .close 1005 [] := by
            simp only [buildEvent, ctlBuf, parsed]
          dsimp only
          rw [event]
          exact echo_reacts live [] rfl
      | some found =>
          obtain ⟨code, reason⟩ := found
          have event : buildEvent { (if w.state = .isOpen then
              w.queueClose code "" else w) with state := .closed } .close = .close code reason := by
            simp only [buildEvent, ctlBuf, parsed]
          dsimp only
          rw [event]
          exact echo_reacts live reason (echoCode_parsed parsed).symm

theorem endControl_reacts {w : WsClient} (live : w.Live) (opcode : OpCode) :
    w.EndReacts (w.endControl opcode) := by
  have received := onReceivedClose_reacts live
  unfold endControl
  cases opcode with
  | ping =>
      dsimp only
      split
      next pongs =>
        refine ⟨rfl, fun _ => .inr Iff.rfl, [⟨true, .pong, w.ctlBuf⟩], by simp [writeFrame], ?_⟩
        exact ⟨[], by simp [buildEvent, Event.answer, pongs, writeFrame], rfl⟩
      next quiet =>
        exact (Unmoved.refl w).quiet (by simp [buildEvent, Event.answer, quiet])
  | pong => exact (Unmoved.refl w).quiet rfl
  | close =>
      dsimp only
      generalize w.onReceivedClose = out at received
      obtain ⟨w', result⟩ := out
      cases result with
      | ok _ => exact received
      | error e => exact received
  | continuation | text | binary => exact (Unmoved.refl w).fails _

theorem onFrameEnd_reacts {w : WsClient} (live : w.Live) : w.EndReacts w.onFrameEnd := by
  unfold onFrameEnd
  split
  next => exact (Unmoved.refl w).fails _
  next opcode current =>
    have ended : w.Unmoved { w with curOpcode := none } := ⟨rfl, rfl, rfl⟩
    have taken : w.Unmoved { w with curOpcode := none, msgOpcode := none } := ⟨rfl, rfl, rfl⟩
    dsimp only
    split
    next =>
      have closed := endControl_reacts (w := { w with curOpcode := none }) live opcode
      generalize endControl _ opcode = out at closed
      obtain ⟨w', result⟩ := out
      match result with
      | .ok none => exact ⟨closed.config, closed.state, closed.tx⟩
      | .ok (some kind) => exact ended.trans_reacts closed
      | .error e => exact ended.trans_reacts closed
    next =>
      split
      next => exact ended
      next =>
        split
        next => exact ended.fails _
        next =>
          split
          next =>
            split
            next => exact taken.refuse live rfl
            next => exact taken.quiet rfl
          next => exact taken.quiet rfl
          next => exact taken.fails _

/-- A step of the poll loop. -/
def AdvanceReacts (w : WsClient) : WsClient × Except WsError AdvanceResult → Prop
  | (w', .ok (.emit kind)) => w.Reacts w' [w'.buildEvent kind] none
  | (w', .ok .progressed) | (w', .ok .needMore) => w.Unmoved w'
  | (w', .error e) => w.Reacts w'.closeOnError [] (some e)

theorem takePayload_unmoved (w : WsClient) (slice : Bytes) : w.Unmoved (w.takePayload slice) := by
  unfold takePayload
  repeat' split
  all_goals exact ⟨rfl, rfl, rfl⟩

theorem advanceFrame_reacts {w : WsClient} (live : w.Live) : w.AdvanceReacts w.advanceFrame := by
  unfold advanceFrame
  have moved (parser : ParserState) (recvBuf : Bytes) : w.Unmoved { w with parser, recvBuf } :=
    ⟨rfl, rfl, rfl⟩
  split
  next parser e fed => exact (moved parser w.recvBuf).refuse live rfl
  next parser consumed fed => exact moved parser _
  next parser consumed event fed =>
    have position := moved parser (w.recvBuf.drop consumed)
    dsimp only
    cases event with
    | frameStart h =>
        have started := onFrameStart_reacts
          (w := { w with parser, recvBuf := w.recvBuf.drop consumed }) live h
        dsimp only
        generalize onFrameStart _ h = out at started
        obtain ⟨w', result⟩ := out
        cases result with
        | ok _ => exact ⟨started.config, started.state, started.tx⟩
        | error e => exact position.trans_reacts started
    | payloadChunk slice =>
        have took := takePayload_unmoved { w with parser, recvBuf := w.recvBuf.drop consumed } slice
        exact ⟨took.config, took.state, took.tx⟩
    | frameEnd =>
        have ended := onFrameEnd_reacts
          (w := { w with parser, recvBuf := w.recvBuf.drop consumed }) live
        dsimp only
        generalize onFrameEnd _ = out at ended
        obtain ⟨w', result⟩ := out
        match result with
        | .ok none => exact ⟨ended.config, ended.state, ended.tx⟩
        | .ok (some kind) => exact position.trans_reacts ended
        | .error e => exact position.trans_reacts ended

/-! ### The poll loop -/

section Polling

variable [AcceptDigest]

theorem advanceHandshake_reacts {w : WsClient} (connecting : w.state = .connecting) :
    w.AdvanceReacts w.advanceHandshake := by
  unfold advanceHandshake
  split
  next => exact (Unmoved.refl w).fails _
  next => exact .refl w
  next =>
    split
    next => exact (Unmoved.refl w).fails _
    next =>
      refine ⟨rfl, fun _ => .inr (by simp [connecting]), [], by simp, ?_⟩
      exact Answers.event

theorem advance_reacts (w : WsClient) : w.AdvanceReacts w.advance := by
  unfold advance
  split
  next connecting => exact advanceHandshake_reacts connecting
  next isOpen => exact advanceFrame_reacts (.inl isOpen)
  next closing => exact advanceFrame_reacts (.inr closing)
  next => exact .refl w

/-- What a turn of the poll loop, or the whole of it, does. -/
def PollReacts (w : WsClient) : WsClient × Option (Except WsError Event) → Prop
  | (w', none) => w.Unmoved w'
  | (w', some (.ok event)) => w.Reacts w' [event] none
  | (w', some (.error e)) => w.Reacts w' [] (some e)

def TurnReacts (w : WsClient) : WsClient × Turn → Prop
  | (w', .again) => w.Unmoved w'
  | (w', .done result) => w.PollReacts (w', result)

omit [AcceptDigest] in
theorem Reacts.emitted {w w' : WsClient} {kind : EmitKind}
    (reacts : w.Reacts w' [w'.buildEvent kind] none) : w.TurnReacts (w'.emitted kind) :=
  ⟨reacts.config, reacts.kept, reacts.answers⟩

theorem pollTurn_reacts (w : WsClient) : w.TurnReacts w.pollTurn := by
  unfold pollTurn
  split
  next => exact Unmoved.refl w
  next =>
    have tried := w.tryEmitBorrowedData_reacts
    split
    next w₁ kind found =>
      rw [found] at tried
      obtain ⟨unmoved, rfl | rfl⟩ := tried
      · exact (unmoved.quiet rfl).emitted
      · exact (unmoved.quiet rfl).emitted
    next w₁ found =>
      rw [found] at tried
      exact tried
    next w₁ e found =>
      rw [found] at tried
      exact tried
    next w₁ found =>
      rw [found] at tried
      have unmoved : w.Unmoved w₁ := tried
      have advanced := w₁.advance_reacts
      unfold afterAdvance
      split
      next w₂ kind stepped =>
        rw [stepped] at advanced
        exact (unmoved.trans_reacts advanced).emitted
      next w₂ stepped =>
        rw [stepped] at advanced
        exact unmoved.trans advanced
      next w₂ stepped =>
        rw [stepped] at advanced
        exact unmoved.trans advanced
      next w₂ e stepped =>
        rw [stepped] at advanced
        exact unmoved.trans_reacts advanced

omit [AcceptDigest] in
theorem clearAfterEmit_unmoved (w : WsClient) : w.Unmoved w.clearAfterEmit :=
  ⟨w.clearAfterEmit_config, w.clearAfterEmit_state, w.clearAfterEmit_tx⟩

omit [AcceptDigest] in
theorem Unmoved.trans_poll {w w' : WsClient} {out : WsClient × Option (Except WsError Event)}
    (unmoved : w.Unmoved w') (reacts : w'.PollReacts out) : w.PollReacts out := by
  match out, reacts with
  | (w'', none), reacts => exact unmoved.trans reacts
  | (w'', some (.ok event)), reacts => exact unmoved.trans_reacts reacts
  | (w'', some (.error e)), reacts => exact unmoved.trans_reacts reacts

/-- Every poll answers what it reads. -/
theorem pollEvent_reacts (w : WsClient) : w.PollReacts w.pollEvent := by
  refine w.clearAfterEmit_unmoved.trans_poll ?_
  show w.clearAfterEmit.PollReacts w.clearAfterEmit.pollLoop
  generalize w.clearAfterEmit = w₁
  fun_induction pollLoop w₁ with
  | case1 w w₁ turned ih =>
      have turn := w.pollTurn_reacts
      rw [turned] at turn
      exact turn.trans_poll ih
  | case2 w w₁ result turned =>
      have turn := w.pollTurn_reacts
      rw [turned] at turn
      exact turn

/-- A closed client reads nothing more. -/
theorem pollEvent_closed {w : WsClient} (closed : w.state = .closed) :
    w.pollEvent = (w.clearAfterEmit, none) := by
  have turned : w.clearAfterEmit.pollTurn = (w.clearAfterEmit, .done none) := by
    rw [pollTurn, if_pos (by rw [w.clearAfterEmit_state]; exact closed)]
  unfold pollEvent pollLoop
  split <;> simp_all

theorem pollAll_closed {w : WsClient} (closed : w.state = .closed) :
    w.pollAll = (w.clearAfterEmit, [], none) := by
  have polled := pollEvent_closed closed
  unfold pollAll
  split <;> simp_all

/-- Polling to the end answers all it reads. -/
theorem pollAll_reacts (w : WsClient) : w.Reacts w.pollAll.1 w.pollAll.2.1 w.pollAll.2.2 := by
  fun_induction pollAll w with
  | case1 w w₁ polled =>
      have reacts := w.pollEvent_reacts
      rw [polled] at reacts
      exact Unmoved.reacts reacts
  | case2 w w₁ e polled =>
      have reacts := w.pollEvent_reacts
      rw [polled] at reacts
      exact reacts
  | case3 w w₁ event polled w₂ events error tail ih =>
      have reacts := w.pollEvent_reacts
      rw [polled] at reacts
      obtain ⟨config, kept, added, outbound, farewell, rfl, none⟩ := reacts
      cases none
      rw [List.append_nil] at outbound
      rcases kept rfl with closed | same
      · rw [pollAll_closed closed] at tail
        cases tail
        refine ⟨by simp [config], fun _ => .inl (by simp [closed]), _, ?_, [], rfl, rfl⟩
        simp [outbound]
      · rw [tail] at ih
        obtain ⟨config', kept', added', outbound', answers⟩ := ih
        refine ⟨config'.trans config, fun clean => ?_,
          [event].flatMap (Event.answer w.config w.state) ++ added', ?_, ?_⟩
        · exact (kept' clean).imp id fun later => later.trans same
        · rw [outbound', outbound, List.append_assoc]
        · rw [config] at answers
          exact answers.cons (some event) same

/-! ## Draining -/

theorem pollAll_event {w w₁ : WsClient} {event : Event}
    (polled : w.pollEvent = (w₁, some (.ok event))) :
    w.pollAll = (w₁.pollAll.1, event :: w₁.pollAll.2.1, w₁.pollAll.2.2) := by
  rw [pollAll]
  split <;> simp_all

theorem pollAll_error {w w₁ : WsClient} {e : WsError}
    (polled : w.pollEvent = (w₁, some (.error e))) : w.pollAll = (w₁, [], some e) := by
  rw [pollAll]
  split <;> simp_all

theorem pollAll_none {w w₁ : WsClient} (polled : w.pollEvent = (w₁, none)) :
    w.pollAll = (w₁, [], none) := by
  rw [pollAll]
  split <;> simp_all

variable {σ : Type} (ops : SinkOps σ)

theorem drainTurn_ending {w : WsClient} (ending : w.state.Ending) (sink : σ) (events : Nat) :
    w.drainTurn ops sink events = w.drainEvent ops sink events := by
  have cleared : w.clearAfterEmit.state ≠ .isOpen := by
    rw [w.clearAfterEmit_state]
    exact ending.ne_open
  have again : w.clearAfterEmit.pollEvent = w.pollEvent := by
    unfold pollEvent
    rw [clearAfterEmit_idle w.clearAfterEmit_lastEmitted]
  simp only [drainTurn, tryDrain, drainEvent, again, if_pos (Or.inl cleared), Nat.add_zero]

/-- A client that is closing or closed reads by polling only. -/
theorem drain_ending {w : WsClient} (ending : w.state.Ending) (sink : σ) (events : Nat) :
    (w.drain ops sink events).1 = w.pollAll.1 ∧
      errorOf (w.drain ops sink events).2.2 = w.pollAll.2.2 := by
  fun_induction drain ops w sink events with
  | case1 w sink events w₁ sink₁ more turned ih =>
      have later := w.pollEvent_before
      rw [drainTurn_ending ops ending, drainEvent] at turned
      split at turned
      next => simp at turned
      next => simp at turned
      next w₂ event polled =>
        simp only [Prod.mk.injEq] at turned
        rw [polled, turned.1] at later
        rw [turned.1] at polled
        rw [pollAll_event polled]
        exact ih (Nat.le_trans ending later)
  | case2 w sink events w₁ sink₁ result turned =>
      rw [drainTurn_ending ops ending, drainEvent] at turned
      split at turned
      next w₂ polled =>
        simp only [Prod.mk.injEq, DrainTurn.done.injEq] at turned
        rw [pollAll_none polled, ← turned.1, ← turned.2.2]
        exact ⟨rfl, rfl⟩
      next w₂ e polled =>
        simp only [Prod.mk.injEq, DrainTurn.done.injEq] at turned
        rw [pollAll_error polled, ← turned.1, ← turned.2.2]
        exact ⟨rfl, rfl⟩
      next => simp at turned

omit [AcceptDigest] in
theorem feedRecv_nil (w : WsClient) : w.feedRecv [] = w := by simp [feedRecv]

theorem drainFromIngress_ending {w : WsClient} (ending : w.state.Ending) (bytes : Bytes)
    (sink : σ) :
    (w.drainFromIngress ops bytes sink).1 = (w.clearAfterEmit.feedRecv bytes).pollAll.1 ∧
      errorOf (w.drainFromIngress ops bytes sink).2.2 =
        (w.clearAfterEmit.feedRecv bytes).pollAll.2.2 := by
  have cleared : w.clearAfterEmit.state.Ending := by
    rw [w.clearAfterEmit_state]
    exact ending
  have indirect : w.clearAfterEmit.canDrainIngressDirectly = false := by
    simp [canDrainIngressDirectly, ending.ne_open]
  have fed : (w.clearAfterEmit.feedRecv bytes).state.Ending := cleared
  simp only [drainFromIngress, indirect]
  split
  next empty =>
    obtain rfl : bytes = [] := by simpa using empty
    rw [feedRecv_nil]
    exact drain_ending ops cleared sink 0
  next => exact drain_ending ops fed sink 0

end Polling

end WsClient

section Drains

variable [AcceptDigest] {σ : Type} {ops : SinkOps σ} {config : WsConfig} {clientKey : Text}
  {w : WsClient} {mode : Mode} {c : Core} {r : Bytes}

/-- A drain from a frame boundary answers what polling would have read. -/
theorem Drained.answers {sink : σ} {events : Nat} {out : WsClient × σ × Except WsError Nat}
    (stands : Stands config clientKey w mode c r)
    (drained : Drained ops config clientKey sink events
      (decode config clientKey fastFault mode c r) out) :
    ∃ added, out.1.tx.outbound = w.tx.outbound ++ added ∧
      Answers config w.state out.1.state w.pollAll.2.1 (errorOf out.2.2) added := by
  obtain ⟨polled, -⟩ := pollAll_spec stands
  obtain ⟨items, -, -⟩ := decode_agree config clientKey mode c r
  obtain ⟨added, outbound, answers⟩ := decode_answers config clientKey fastFault mode c r
  have sent := stands.holds.wire.outbound
  rw [WsClient.clearAfterEmit_tx] at sent
  have read : w.pollAll.2.1 = (decode config clientKey fastFault mode c r).events := by
    rw [polled, Decoded.events, Decoded.events, items]
  have failed : errorOf out.2.2 = (decode config clientKey fastFault mode c r).error := by
    rw [drained.result, Decoded.answer]
    cases (decode config clientKey fastFault mode c r).error <;> rfl
  refine ⟨added, ?_, ?_⟩
  · rw [drained.reads.wire.outbound, outbound, sent]
  · rw [drained.reads.wire.state, read, failed, stands.state_eq]
    exact answers

/-- Every drain of a client that is at a frame boundary or ending. -/
theorem drain_answers (lawful : ops.Lawful) (stands : w.Ready ∨ w.state.Ending) {sink : σ}
    (settled : ops.Settled sink) (events : Nat) :
    let out := w.drain ops sink events
    ∃ added, out.1.tx.outbound = w.tx.outbound ++ added ∧
      Answers w.config w.state out.1.state w.pollAll.2.1 (errorOf out.2.2) added := by
  dsimp only
  obtain ⟨mode, c, r, stands⟩ | ending := stands
  · exact (drain_spec lawful stands settled).answers stands
  · obtain ⟨client, error⟩ := WsClient.drain_ending ops ending sink events
    rw [client, error]
    exact w.pollAll_reacts.answers

theorem drainFromIngress_answers (lawful : ops.Lawful) (stands : w.Ready ∨ w.state.Ending)
    {sink : σ} (settled : ops.Settled sink) (bytes : Bytes) :
    let out := w.drainFromIngress ops bytes sink
    ∃ added, out.1.tx.outbound = w.tx.outbound ++ added ∧
      Answers w.config w.state out.1.state (w.clearAfterEmit.feedRecv bytes).pollAll.2.1
        (errorOf out.2.2) added := by
  dsimp only
  have same : w.Unmoved (w.clearAfterEmit.feedRecv bytes) :=
    ⟨w.clearAfterEmit_config, w.clearAfterEmit_state, w.clearAfterEmit_tx⟩
  obtain ⟨mode, c, r, stands⟩ | ending := stands
  · have fed : Stands w.config w.clientKey (w.clearAfterEmit.feedRecv bytes) mode c (r ++ bytes) :=
      (stands.holds.feedRecv bytes).stands
    have answers := (drainFromIngress_spec lawful stands settled bytes).answers fed
    rwa [same.state, same.tx] at answers
  · obtain ⟨client, error⟩ := WsClient.drainFromIngress_ending ops ending bytes sink
    rw [client, error]
    exact (same.trans_reacts (WsClient.pollAll_reacts _)).answers

end Drains

end Talaris.Ws
