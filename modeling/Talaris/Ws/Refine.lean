import Talaris.Ws.Decode

/-!
# Clients at a frame boundary

`Holds config clientKey w mode c r` says that the client `w` stands at a frame boundary in `c` with
the bytes `r` since then, wherever it keeps them.  The handlers for the start and
the end of a frame give the verdict of `Core.body` on them.
-/

namespace Talaris.Ws

open Talaris.Http

/-! ## Outbound frames -/

namespace TxQueue

theorem nextMask_queued (tx : TxQueue) : tx.nextMask.2.queued = tx.queued := by
  unfold nextMask
  dsimp only
  split <;> rfl

theorem compactTxIfNeeded_queued (tx : TxQueue) (extra : Nat) :
    (tx.compactTxIfNeeded extra).queued = tx.queued := by
  unfold compactTxIfNeeded
  repeat' split
  all_goals rfl

@[simp] theorem writeFrame_outbound (tx : TxQueue) (fin : Bool) (opcode : OpCode)
    (payload : Bytes) :
    (tx.writeFrame fin opcode payload).outbound = tx.outbound ++ [⟨fin, opcode, payload⟩] := by
  simp [writeFrame, outbound, extend, compactTxIfNeeded_queued, nextMask_queued]

end TxQueue

/-- State and outbound frames agree. -/
structure SameWire (w : WsClient) (c : Core) : Prop where
  state : w.state = c.state
  outbound : w.tx.outbound = c.outbound

namespace SameWire

variable {w : WsClient} {c : Core}

theorem queueClose (same : SameWire w c) (code : Nat) (reason : String) :
    SameWire (w.queueClose code reason) (c.queueClose code reason) := by
  obtain ⟨state, outbound⟩ := same
  unfold WsClient.queueClose Core.queueClose
  rw [state]
  split
  next => exact ⟨state, outbound⟩
  next =>
    dsimp only [WsClient.writeFrame, Core.write]
    rw [state]
    split
    next => exact ⟨rfl, by simp [outbound]⟩
    next => exact ⟨rfl, by simp [outbound]⟩

theorem write (same : SameWire w c) (opcode : OpCode) (payload : Bytes) :
    SameWire (w.writeFrame true opcode payload) (c.write opcode payload) :=
  ⟨same.state, by simp [WsClient.writeFrame, Core.write, same.outbound]⟩

end SameWire

/-! ## The relation -/

/-- The message fields between frames. -/
def HoldsMessage (w : WsClient) (message : Option (DataKind × Bytes)) : Prop :=
  w.msgOpcode = message.map (fun m => m.1.toOpCode) ∧
    ∀ kind acc, message = some (kind, acc) → w.msgBuf = acc

/-- The message a data frame belongs to, with the bytes before it. -/
def joins (message : Option (DataKind × Bytes)) (opcode : OpCode) : Option (DataKind × Bytes) :=
  match opcode.dataKind?, message with
  | none, some found => some found
  | some kind, none => some (kind, [])
  | none, none | some _, some _ => none

/-- Where the payload of the current frame goes. -/
inductive HoldsPayload (w : WsClient) (c : Core) (h : FrameHeader) (got : Bytes) : Prop where
  | control (isControl : h.opcode.isControl = true) (ctlBuf : w.ctlBuf = got)
      (message : HoldsMessage w c.message)
  | data {kind : DataKind} {acc : Bytes} (isData : h.opcode.isControl = false)
      (joined : joins c.message h.opcode = some (kind, acc))
      (msgOpcode : w.msgOpcode = some kind.toOpCode) (msgBuf : w.msgBuf = acc ++ got)
      (fits : ¬ saturatingAdd64 acc.length h.payloadLen > w.config.maxMessageSize)

/-- Only the buffers it names matter. -/
theorem HoldsPayload.congr {w w' : WsClient} {c : Core} {h : FrameHeader} {got : Bytes}
    (payload : HoldsPayload w c h got) (ctlBuf : w'.ctlBuf = w.ctlBuf)
    (msgOpcode : w'.msgOpcode = w.msgOpcode) (msgBuf : w'.msgBuf = w.msgBuf)
    (limits : w'.config = w.config) : HoldsPayload w' c h got := by
  cases payload with
  | control isControl held message =>
      refine .control isControl (ctlBuf.trans held) ⟨msgOpcode.trans message.1, ?_⟩
      exact fun kind acc found => msgBuf.trans (message.2 kind acc found)
  | data isData joined opcode held fits =>
      exact .data isData joined (msgOpcode.trans opcode) (msgBuf.trans held) (limits ▸ fits)

/-- A frame whose header is in and whose payload is coming. -/
structure InFrame (w : WsClient) (c : Core) (r : Bytes) (remaining : Nat) (head got : Bytes)
    (h : FrameHeader) : Prop where
  parsed : parseHeader head = .ok (some (h, head.length))
  unmasked : h.mask = none
  bytes : r = head ++ got ++ w.recvBuf
  remaining : got.length + remaining = h.payloadLen
  allowed : ¬ w.config.maxFramePayload < h.payloadLen
  curOpcode : w.curOpcode = some h.opcode
  curFin : w.curFin = h.fin
  payload : HoldsPayload w c h got

/-- Where the bytes since the last frame boundary are. -/
def HoldsInput (w : WsClient) (mode : Mode) (c : Core) (r : Bytes) : Prop :=
  match w.parser with
  | .idle => mode = .idle ∧ r = w.recvBuf ∧ HoldsMessage w c.message
  | .headerPartial filled =>
      mode = .streaming ∧ c.state ≠ .connecting ∧ r = filled ++ w.recvBuf ∧
        filled.length ≤ minNeeded filled ∧ HoldsMessage w c.message
  | .payload remaining =>
      mode = .streaming ∧ c.state ≠ .connecting ∧
        ∃ head got h, InFrame w c r remaining head got h

namespace HoldsInput

variable {w : WsClient} {c : Core} {r : Bytes}

theorem idle (parser : w.parser = .idle) (bytes : r = w.recvBuf)
    (message : HoldsMessage w c.message) : HoldsInput w .idle c r := by
  unfold HoldsInput
  rw [parser]
  exact ⟨rfl, bytes, message⟩

theorem headerPartial {filled : Bytes} (parser : w.parser = .headerPartial filled)
    (connected : c.state ≠ .connecting) (bytes : r = filled ++ w.recvBuf)
    (fits : filled.length ≤ minNeeded filled) (message : HoldsMessage w c.message) :
    HoldsInput w .streaming c r := by
  unfold HoldsInput
  rw [parser]
  exact ⟨rfl, connected, bytes, fits, message⟩

theorem payload {remaining : Nat} {head got : Bytes} {h : FrameHeader}
    (parser : w.parser = .payload remaining) (connected : c.state ≠ .connecting)
    (inFrame : InFrame w c r remaining head got h) : HoldsInput w .streaming c r := by
  unfold HoldsInput
  rw [parser]
  exact ⟨rfl, connected, head, got, h, inFrame⟩

end HoldsInput

/-- A client that stands at a frame boundary in `c` with the bytes `r` since then. -/
structure Holds (config : WsConfig) (clientKey : Text) (w : WsClient) (mode : Mode) (c : Core)
    (r : Bytes) : Prop where
  config : w.config = config
  clientKey : w.clientKey = clientKey
  cleared : w.lastEmitted = none
  unborrowed : w.borrowedPayload = none
  wire : SameWire w c
  input : HoldsInput w mode c r

/-- What the last event borrowed lies inside `recvBuf`. -/
def BorrowFits (w : WsClient) : Prop :=
  ∀ borrowed, w.borrowedPayload = some borrowed → borrowed.frameLen ≤ w.recvBuf.length

/-- The same of a client that may still lend out its last event. -/
structure Stands (config : WsConfig) (clientKey : Text) (w : WsClient) (mode : Mode) (c : Core)
    (r : Bytes) : Prop where
  holds : Holds config clientKey w.clearAfterEmit mode c r
  fits : BorrowFits w

namespace Holds

variable {config : WsConfig} {clientKey : Text} {w : WsClient} {mode : Mode} {c : Core} {r : Bytes}

theorem stands (holds : Holds config clientKey w mode c r) :
    Stands config clientKey w mode c r := by
  refine ⟨?_, ?_⟩
  · rw [WsClient.clearAfterEmit_idle holds.cleared]
    exact holds
  · intro borrowed lent
    rw [holds.unborrowed] at lent
    cases lent

theorem feedRecv (holds : Holds config clientKey w mode c r) (bytes : Bytes) :
    Holds config clientKey (w.feedRecv bytes) mode c (r ++ bytes) := by
  refine ⟨holds.config, holds.clientKey, holds.cleared, holds.unborrowed,
    ⟨holds.wire.state, holds.wire.outbound⟩, ?_⟩
  have input := holds.input
  unfold HoldsInput at input
  cases parser : w.parser with
  | idle =>
      simp only [parser] at input
      obtain ⟨rfl, rfl, message⟩ := input
      exact .idle parser rfl message
  | headerPartial filled =>
      simp only [parser] at input
      obtain ⟨rfl, connected, rfl, fits, message⟩ := input
      exact .headerPartial parser connected (List.append_assoc _ _ _) fits message
  | payload remaining =>
      simp only [parser] at input
      obtain ⟨rfl, connected, head, got, h, inFrame⟩ := input
      refine .payload parser connected (?_ : InFrame _ _ _ _ head got h)
      obtain ⟨parsed, unmasked, rfl, rem, allowed, curOpcode, curFin, payload⟩ := inFrame
      refine ⟨parsed, unmasked, List.append_assoc _ _ _, rem, allowed, curOpcode, curFin, ?_⟩
      cases payload with
      | control isControl ctlBuf message => exact .control isControl ctlBuf message
      | data isData joined msgOpcode msgBuf fits => exact .data isData joined msgOpcode msgBuf fits

end Holds

theorem Stands.feedRecv {config : WsConfig} {clientKey : Text} {w : WsClient} {mode : Mode}
    {c : Core} {r : Bytes} (stands : Stands config clientKey w mode c r) (bytes : Bytes) :
    Stands config clientKey (w.feedRecv bytes) mode c (r ++ bytes) := by
  have commutes : (w.feedRecv bytes).clearAfterEmit = w.clearAfterEmit.feedRecv bytes := by
    have fits := stands.fits
    unfold WsClient.clearAfterEmit WsClient.feedRecv
    dsimp only
    repeat' split
    all_goals simp_all [BorrowFits, List.drop_append_of_le_length]
  refine ⟨commutes ▸ stands.holds.feedRecv bytes, fun borrowed lent => ?_⟩
  have := stands.fits borrowed lent
  simp only [WsClient.feedRecv, List.length_append]
  omega

/-! ## Facts about one frame -/

section Frame

variable {config : WsConfig} {clientKey : Text} {mode : Mode} {w : WsClient} {c : Core} {r : Bytes}

/-- Frames are read, not the upgrade response. -/
def Core.Live (c : Core) : Prop := c.state = .isOpen ∨ c.state = .closing

/-- Wire agreement of a closing client survives `closeOnError`. -/
theorem SameWire.closeOnError {next : Core} (same : SameWire w next)
    (closing : next.state = .closing) : SameWire w.closeOnError next := by
  unfold WsClient.closeOnError
  rw [same.state, closing]
  exact same

theorem SameWire.closedOnError (same : SameWire w c) (connecting : c.state = .connecting) :
    SameWire w.closeOnError { c with state := .closed } := by
  have notClosing : w.state ≠ .closing := by simp [same.state, connecting]
  rw [WsClient.closeOnError, if_pos notClosing]
  exact ⟨rfl, same.outbound⟩

theorem Core.queueClose_closing (live : c.Live) (code : Nat) (reason : String) :
    (c.queueClose code reason).state = .closing := by
  obtain isOpen | closing := live
  · simp [queueClose, write, isOpen]
  · simp [queueClose, closing]

theorem Holds.ready (holds : Holds config clientKey w mode c r)
    (ready : ¬ (w.state ≠ .isOpen ∨ !w.parser.isIdle ∨ w.msgOpcode.isSome ∨ w.recvBuf.isEmpty)) :
    mode = .idle ∧ c.state = .isOpen ∧ c.message = none ∧ r = w.recvBuf ∧ w.parser = .idle := by
  simp only [not_or, ne_eq, Decidable.not_not] at ready
  obtain ⟨isOpen, idle, noMessage, nonempty⟩ := ready
  have input := holds.input
  unfold HoldsInput at input
  cases parser : w.parser with
  | idle =>
      simp only [parser] at input
      obtain ⟨modeIdle, bytes, message⟩ := input
      refine ⟨modeIdle, holds.wire.state ▸ isOpen, ?_, bytes, rfl⟩
      cases held : c.message with
      | none => rfl
      | some m => simp [message.1, held] at noMessage
  | headerPartial filled => simp [parser, ParserState.isIdle] at idle
  | payload remaining => simp [parser, ParserState.isIdle] at idle

/-- An idle client that drops bytes from the front. -/
theorem Holds.skip (holds : Holds config clientKey w .idle c r) (rest : Bytes) :
    Holds config clientKey
      { w with recvBuf := rest, borrowedPayload := none, lastEmitted := none } .idle c rest := by
  refine ⟨holds.config, holds.clientKey, rfl, rfl, ⟨holds.wire.state, holds.wire.outbound⟩, ?_⟩
  have input := holds.input
  unfold HoldsInput at input
  cases parser : w.parser with
  | idle =>
      simp only [parser] at input
      exact .idle rfl rfl input.2.2
  | headerPartial filled => simp [parser] at input
  | payload remaining => simp [parser] at input

/-- A final data frame outside a message, as the borrowed and the direct path see it. -/
theorem Core.body_unfragmented {h : FrameHeader} {size : Nat} {kind : DataKind}
    (parsed : parseHeader r = .ok (some (h, size))) (fin : h.fin = true)
    (opcode : h.opcode = kind.toOpCode) (noMessage : c.message = none) :
    c.body config h size r =
      if config.maxFramePayload < h.payloadLen then
        .fail (c.queueClose CloseCode.messageTooBig.asU16 "frame too large") .messageTooLarge
      else if config.maxMessageSize < h.payloadLen then
        .fail (c.queueClose CloseCode.messageTooBig.asU16 "message exceeds max_message_size")
          .messageTooLarge
      else if r.length < size + h.payloadLen then .needMore
      else if kind = .text ∧
          !WsClient.textAllowed config ((r.take (size + h.payloadLen)).drop size) then
        .fail (c.queueClose CloseCode.invalidPayload.asU16 "invalid utf-8") .utf8Invalid
      else
        .frame c (size + h.payloadLen)
          (some (kind.event ((r.take (size + h.payloadLen)).drop size))) := by
  have len := parseHeader_payloadLen_lt parsed
  have unsaturated : saturatingAdd64 ([] : Bytes).length h.payloadLen = h.payloadLen := by
    simp only [saturatingAdd64, List.length_nil]
    omega
  have notControl : h.opcode.isControl = false := by
    rw [opcode]
    cases kind <;> rfl
  have starts : h.opcode.dataKind? = some kind := by
    rw [opcode]
    cases kind <;> rfl
  have unchanged : { c with message := none } = c := by
    cases c
    simp_all
  simp only [body, notControl, starts, noMessage, data, unsaturated, fin, unchanged, gt_iff_lt,
    List.nil_append, Bool.false_eq_true, Bool.not_true, if_false]

/-- A data frame that joins a message is judged as its continuation. -/
theorem Core.body_of_joins {h : FrameHeader} {kind : DataKind} {acc : Bytes}
    (isData : h.opcode.isControl = false) (joined : joins c.message h.opcode = some (kind, acc))
    (allowed : ¬ config.maxFramePayload < h.payloadLen) (size : Nat) (r : Bytes) :
    c.body config h size r = c.data config kind acc h size r := by
  unfold joins at joined
  unfold body
  rw [if_neg allowed, isData]
  split at joined
  next found starts held =>
    simp only [Option.some.injEq] at joined
    simp [starts, held, joined]
  next begun starts held =>
    simp only [Option.some.injEq, Prod.mk.injEq] at joined
    obtain ⟨rfl, rfl⟩ := joined
    simp [starts, held]
  all_goals cases joined

/-- How a frame start ends: refused with the verdict of the decoder, or ready for the payload. -/
def StartSpec (config : WsConfig) (w : WsClient) (c : Core) (h : FrameHeader) (size : Nat)
    (r : Bytes) (started : WsClient × Except WsError Unit) : Prop :=
  (∃ w' code reason error, started = (w'.queueClose code reason, .error error) ∧
      SameWire w' c ∧ w'.config = w.config ∧
      c.body config h size r = .fail (c.queueClose code reason) error) ∨
    ∃ ctlBuf msgOpcode msgBuf,
      started =
          ({ w with ctlBuf, msgOpcode, msgBuf, curOpcode := some h.opcode, curFin := h.fin },
            .ok ()) ∧
        HoldsPayload
          { w with ctlBuf, msgOpcode, msgBuf, curOpcode := some h.opcode, curFin := h.fin } c h [] ∧
        ¬ config.maxFramePayload < h.payloadLen

theorem startData_spec {h : FrameHeader} {kind : DataKind} {acc : Bytes} (wire : SameWire w c)
    (allowed : ¬ w.config.maxFramePayload < h.payloadLen)
    (isData : h.opcode.isControl = false) (joined : joins c.message h.opcode = some (kind, acc))
    (size : Nat) (r : Bytes) :
    StartSpec w.config w c h size r
      ({ w with msgOpcode := some kind.toOpCode, msgBuf := acc }.startData h) := by
  have body := Core.body_of_joins isData joined allowed size r
  by_cases large : saturatingAdd64 acc.length h.payloadLen > w.config.maxMessageSize
  · refine .inl ⟨{ w with msgOpcode := some kind.toOpCode, msgBuf := acc },
      CloseCode.messageTooBig.asU16, "message exceeds max_message_size", .messageTooLarge,
      ?_, ⟨wire.state, wire.outbound⟩, rfl, ?_⟩
    · rw [WsClient.startData, if_pos large]
    · rw [body, Core.data, if_pos large]
  · refine .inr ⟨w.ctlBuf, some kind.toOpCode, acc, ?_, ?_, allowed⟩
    · rw [WsClient.startData, if_neg large]
    · exact .data isData joined rfl (List.append_nil acc).symm large

theorem onFrameStart_spec (wire : SameWire w c) (message : HoldsMessage w c.message)
    (h : FrameHeader) (size : Nat) (r : Bytes) :
    StartSpec w.config w c h size r (w.onFrameStart h) := by
  obtain ⟨held, buffered⟩ := message
  unfold WsClient.onFrameStart
  by_cases large : w.config.maxFramePayload < h.payloadLen
  · rw [if_pos large]
    refine .inl ⟨w, CloseCode.messageTooBig.asU16, "frame too large", .messageTooLarge, rfl, wire,
      rfl, ?_⟩
    rw [Core.body, if_pos large]
  rw [if_neg large]
  by_cases isControl : h.opcode.isControl = true
  · rw [if_pos isControl]
    exact .inr ⟨[], w.msgOpcode, w.msgBuf, rfl, .control isControl rfl ⟨held, buffered⟩, large⟩
  rw [if_neg isControl]
  have isData : h.opcode.isControl = false := by simpa using isControl
  by_cases continues : h.opcode = .continuation
  · rw [if_pos continues]
    have starts : h.opcode.dataKind? = none := by rw [continues, OpCode.dataKind?]
    cases found : c.message with
    | none =>
        have absent : w.msgOpcode.isNone = true := by simp [held, found]
        rw [if_pos absent]
        refine .inl ⟨w, CloseCode.protocolError.asU16, "continuation without start",
          .protocol "continuation without start", rfl, wire, rfl, ?_⟩
        simp [Core.body, large, isData, starts, found]
    | some m =>
        obtain ⟨kind, acc⟩ := m
        have present : ¬ w.msgOpcode.isNone = true := by simp [held, found]
        rw [if_neg present]
        have joined : joins c.message h.opcode = some (kind, acc) := by
          simp [joins, starts, found]
        have spec := startData_spec wire large isData joined size r
        have same : { w with msgOpcode := some kind.toOpCode, msgBuf := acc } = w := by
          have opcode : w.msgOpcode = some kind.toOpCode := by simp [held, found]
          rw [← opcode, ← buffered kind acc found]
        rwa [same] at spec
  · rw [if_neg continues]
    obtain ⟨kind, opcode, starts⟩ :
        ∃ kind : DataKind, h.opcode = kind.toOpCode ∧ h.opcode.dataKind? = some kind := by
      cases opcode : h.opcode with
      | text => exact ⟨.text, rfl, rfl⟩
      | binary => exact ⟨.binary, rfl, rfl⟩
      | continuation => exact absurd opcode continues
      | close | ping | pong => simp [opcode, OpCode.isControl] at isData
    cases found : c.message with
    | some m =>
        have present : w.msgOpcode.isSome = true := by simp [held, found]
        rw [if_pos present]
        refine .inl ⟨w, CloseCode.protocolError.asU16, "new data frame mid-fragmentation",
          .protocol "nested data frame", rfl, wire, rfl, ?_⟩
        simp [Core.body, large, isData, starts, found]
    | none =>
        have absent : ¬ w.msgOpcode.isSome = true := by simp [held, found]
        rw [if_neg absent, opcode]
        have joined : joins c.message h.opcode = some (kind, []) := by
          simp [joins, starts, found]
        exact startData_spec wire large isData joined size r

/-- Payload bytes go where the payload goes. -/
theorem takePayload_spec {h : FrameHeader} {got : Bytes} (curOpcode : w.curOpcode = some h.opcode)
    (payload : HoldsPayload w c h got) (slice : Bytes) :
    ∃ ctlBuf msgBuf, w.takePayload slice = { w with ctlBuf, msgBuf } ∧
      HoldsPayload { w with ctlBuf, msgBuf } c h (got ++ slice) := by
  unfold WsClient.takePayload
  rw [curOpcode]
  dsimp only
  cases payload with
  | control isControl ctlBuf message =>
      rw [if_pos isControl, ctlBuf]
      exact ⟨got ++ slice, w.msgBuf, rfl, .control isControl rfl message⟩
  | @data kind acc isData joined msgOpcode msgBuf fits =>
      have notControl : ¬ h.opcode.isControl = true := by simp [isData]
      rw [if_neg notControl, msgBuf, List.append_assoc]
      exact ⟨w.ctlBuf, acc ++ (got ++ slice), rfl, .data isData joined msgOpcode rfl fits⟩

/-- A frame that the direct path takes has a final data header. -/
theorem isDirect_false_of_header {h : FrameHeader} {size : Nat}
    (parsed : parseHeader r = .ok (some (h, size)))
    (other : !h.fin ∨ (h.opcode ≠ .text ∧ h.opcode ≠ .binary)) :
    isDirect config mode c r = false := by
  have notParsed : ∀ header, parseServerDataHeaderFast r ≠ .ok (.parsed header) := by
    intro header fast
    obtain ⟨sameHeader, kinds⟩ := parseServerDataHeaderFast_parsed fast
    rw [parsed] at sameHeader
    simp only [Except.ok.injEq, Option.some.injEq, Prod.mk.injEq] at sameHeader
    obtain ⟨rfl, -⟩ := sameHeader
    simp only [Bool.not_true, Bool.false_eq_true, false_or] at other
    obtain text | binary := kinds
    · exact other.1 text
    · exact other.2 binary
  have notDirect : directFrame config r = false := by
    unfold directFrame parseCompleteServerDataFrame
    split
    next event frameLen found =>
      split at found
      next => cases found
      next => cases found
      next => cases found
      next header fast => exact absurd fast (notParsed header)
    next => rfl
  simp [isDirect, notDirect]

/-- A client at a frame boundary, apart from the fields an event may still use. -/
structure AtBoundary (config : WsConfig) (clientKey : Text) (w : WsClient) (c : Core) : Prop where
  config : w.config = config
  clientKey : w.clientKey = clientKey
  cleared : w.lastEmitted = none
  unborrowed : w.borrowedPayload = none
  wire : SameWire w c
  parser : w.parser = .idle
  message : HoldsMessage w c.message

theorem AtBoundary.holds (boundary : AtBoundary config clientKey w c) :
    Holds config clientKey w .idle c w.recvBuf :=
  ⟨boundary.config, boundary.clientKey, boundary.cleared, boundary.unborrowed, boundary.wire,
    .idle boundary.parser rfl boundary.message⟩

/-- An event of the streaming path lends the message or the control buffer only. -/
theorem AtBoundary.emit (boundary : AtBoundary config clientKey w c) {kind : EmitKind}
    (streamed : kind ≠ .borrowedText ∧ kind ≠ .borrowedBinary)
    (whole : kind = .text ∨ kind = .binary → c.message = none) :
    Stands config clientKey { w with lastEmitted := some kind } .idle c w.recvBuf := by
  obtain ⟨limits, key, -, unborrowed, ⟨state, outbound⟩, parser, held, buffered⟩ := boundary
  refine ⟨?_, fun borrowed lent => ?_⟩
  · cases kind with
    | borrowedText | borrowedBinary => simp at streamed
    | text | binary =>
        have none := whole (by simp)
        refine ⟨limits, key, rfl, unborrowed, ⟨state, outbound⟩, .idle parser rfl ⟨held, ?_⟩⟩
        intro kind acc found
        rw [none] at found
        cases found
    | handshakeComplete | ping | pong | close =>
        exact ⟨limits, key, rfl, unborrowed, ⟨state, outbound⟩, .idle parser rfl ⟨held, buffered⟩⟩
  · have := unborrowed.symm.trans lent
    cases this

/-- What `onFrameEnd` makes of a complete frame that the decoder judges as `body`. -/
inductive EndSpec (config : WsConfig) (clientKey : Text) (rest : Bytes) (size : Nat)
    (body : Verdict) : WsClient × Except WsError (Option EmitKind) → Prop where
  | quiet {w' : WsClient} {next : Core} (framed : body = .frame next size none)
      (boundary : AtBoundary config clientKey w' next) (bytes : w'.recvBuf = rest)
      (inMessage : next.message ≠ none) : EndSpec config clientKey rest size body (w', .ok none)
  | event {w' : WsClient} {next : Core} {kind : EmitKind}
      (framed : body = .frame next size (some (w'.buildEvent kind)))
      (boundary : AtBoundary config clientKey w' next) (bytes : w'.recvBuf = rest)
      (streamed : kind ≠ .borrowedText ∧ kind ≠ .borrowedBinary)
      (whole : kind = .text ∨ kind = .binary → next.message = none) :
      EndSpec config clientKey rest size body (w', .ok (some kind))
  | fails {w' : WsClient} {next : Core} {error : WsError} (failed : body = .fail next error)
      (wire : SameWire w' next) (closing : next.state = .closing) :
      EndSpec config clientKey rest size body (w', .error error)

theorem queueClose_boundary (boundary : AtBoundary config clientKey w c) (code : Nat)
    (reason : String) :
    AtBoundary config clientKey (w.queueClose code reason) (c.queueClose code reason) := by
  obtain ⟨limits, key, cleared, unborrowed, wire, parser, message⟩ := boundary
  have sameWire := wire.queueClose code reason
  have kept : (c.queueClose code reason).message = c.message := by
    unfold Core.queueClose
    split
    next => rfl
    next => dsimp only; split <;> rfl
  have fields : ∃ state tx, w.queueClose code reason = { w with state, tx } := by
    unfold WsClient.queueClose
    split
    next => exact ⟨w.state, w.tx, rfl⟩
    next =>
      dsimp only
      split
      next => exact ⟨_, _, rfl⟩
      next => exact ⟨_, _, rfl⟩
  obtain ⟨state, tx, same⟩ := fields
  rw [same] at sameWire ⊢
  exact ⟨limits, key, cleared, unborrowed, sameWire, parser, kept ▸ message⟩

theorem write_boundary (boundary : AtBoundary config clientKey w c) (opcode : OpCode)
    (payload : Bytes) :
    AtBoundary config clientKey (w.writeFrame true opcode payload) (c.write opcode payload) := by
  obtain ⟨limits, key, cleared, unborrowed, wire, parser, message⟩ := boundary
  exact ⟨limits, key, cleared, unborrowed, wire.write opcode payload, parser, message⟩

theorem state_boundary (boundary : AtBoundary config clientKey w c) (state : ConnState) :
    AtBoundary config clientKey { w with state } { c with state } := by
  obtain ⟨limits, key, cleared, unborrowed, wire, parser, message⟩ := boundary
  exact ⟨limits, key, cleared, unborrowed, ⟨rfl, wire.outbound⟩, parser, message⟩

@[simp] theorem queueClose_ctlBuf (w : WsClient) (code : Nat) (reason : String) :
    (w.queueClose code reason).ctlBuf = w.ctlBuf := by
  unfold WsClient.queueClose
  split <;> [rfl; (dsimp only; split <;> rfl)]

/-- The echo of a Close frame. -/
theorem echo_boundary (boundary : AtBoundary config clientKey w c) (code : Nat) :
    AtBoundary config clientKey
      { (if w.state = .isOpen then w.queueClose code "" else w) with state := .closed }
      { (if c.state = .isOpen then c.queueClose code "" else c) with state := .closed } := by
  rw [boundary.wire.state]
  split
  next => exact state_boundary (queueClose_boundary boundary code "") .closed
  next => exact state_boundary boundary .closed

theorem echo_lends (w : WsClient) (code : Nat) :
    (if w.state = .isOpen then w.queueClose code "" else w).ctlBuf = w.ctlBuf ∧
      (if w.state = .isOpen then w.queueClose code "" else w).recvBuf = w.recvBuf := by
  split <;> simp

theorem endControl_close_spec (boundary : AtBoundary config clientKey w c) (size : Nat) :
    EndSpec config clientKey w.recvBuf size (c.control config .close w.ctlBuf size)
      (w.endControl .close) := by
  simp only [WsClient.endControl, WsClient.onReceivedClose, Core.control]
  cases parsed : parseClosePayload w.ctlBuf with
  | error e =>
      refine .fails rfl ⟨rfl, ?_⟩ rfl
      exact (boundary.wire.queueClose _ _).outbound
  | ok found =>
      cases found with
      | none =>
          dsimp only
          have echoed := echo_boundary boundary CloseCode.normal.asU16
          refine .event ?_ echoed ?_ (by simp) (by simp)
          · simp only [WsClient.buildEvent, (echo_lends w CloseCode.normal.asU16).1, parsed]
          · exact (echo_lends w CloseCode.normal.asU16).2
      | some found =>
          obtain ⟨code, reason⟩ := found
          dsimp only
          have echoed := echo_boundary boundary code
          refine .event ?_ echoed ?_ (by simp) (by simp)
          · simp only [WsClient.buildEvent, (echo_lends w code).1, parsed]
          · exact (echo_lends w code).2

theorem endControl_spec (boundary : AtBoundary config clientKey w c) {opcode : OpCode}
    (isControl : opcode.isControl = true) (size : Nat) :
    EndSpec config clientKey w.recvBuf size (c.control config opcode w.ctlBuf size)
      (w.endControl opcode) := by
  cases opcode with
  | continuation | text | binary => simp [OpCode.isControl] at isControl
  | pong => exact .event rfl boundary rfl (by simp) (by simp)
  | close => exact endControl_close_spec boundary size
  | ping =>
      simp only [WsClient.endControl, Core.control, boundary.config]
      split
      next =>
        exact .event rfl (write_boundary boundary .pong w.ctlBuf) rfl (by simp) (by simp)
      next => exact .event rfl boundary rfl (by simp) (by simp)

/-- The end of a data frame that joined a message. -/
theorem endData_spec {h : FrameHeader} {kind : DataKind} {acc got : Bytes} {head : Bytes}
    (limits : w.config = config) (key : w.clientKey = clientKey) (cleared : w.lastEmitted = none)
    (unborrowed : w.borrowedPayload = none) (wire : SameWire w c) (live : c.Live)
    (parser : w.parser = .idle) (curOpcode : w.curOpcode = some h.opcode)
    (curFin : w.curFin = h.fin) (isData : h.opcode.isControl = false)
    (msgOpcode : w.msgOpcode = some kind.toOpCode) (msgBuf : w.msgBuf = acc ++ got)
    (fits : ¬ saturatingAdd64 acc.length h.payloadLen > config.maxMessageSize)
    (whole : got.length = h.payloadLen) :
    EndSpec config clientKey w.recvBuf (head.length + h.payloadLen)
      (c.data config kind acc h head.length (head ++ got ++ w.recvBuf)) w.onFrameEnd := by
  obtain ⟨_, _, recvBuf, _, _, _, _, _, _, tx, _, _, _, _⟩ := w
  obtain ⟨state, outbound⟩ := wire
  dsimp only at limits key cleared unborrowed parser curOpcode curFin msgOpcode msgBuf state outbound
  subst limits key cleared unborrowed parser curOpcode curFin msgOpcode msgBuf state
  have enough : ¬ (head ++ got ++ recvBuf).length < head.length + h.payloadLen := by
    simp only [List.length_append]
    omega
  have payload : ((head ++ got ++ recvBuf).take (head.length + h.payloadLen)).drop head.length =
      got := by
    rw [List.append_assoc, List.take_length_add_append, List.drop_left, ← whole, List.take_left]
  simp only [Core.data, if_neg fits, if_neg enough, payload]
  simp only [WsClient.onFrameEnd, isData, Bool.false_eq_true, if_false]
  by_cases partly : (!h.fin) = true
  · rw [if_pos partly, if_pos partly]
    refine .quiet rfl ⟨rfl, rfl, rfl, rfl, ⟨rfl, outbound⟩, rfl, rfl, ?_⟩ rfl (by simp)
    intro kind' acc' found
    simp only [Option.some.injEq, Prod.mk.injEq] at found
    exact found.2
  · rw [if_neg partly, if_neg partly]
    cases kind with
    | binary =>
        simp only [DataKind.toOpCode, reduceCtorEq, false_and, if_false]
        exact .event rfl ⟨rfl, rfl, rfl, rfl, ⟨rfl, outbound⟩, rfl, rfl, by simp⟩ rfl (by simp)
          (fun _ => rfl)
    | text =>
        simp only [DataKind.toOpCode, true_and]
        split
        next invalid =>
          refine .fails rfl (SameWire.queueClose ?_ _ _) (c.queueClose_closing live _ _)
          exact ⟨rfl, outbound⟩
        next valid =>
          exact .event rfl ⟨rfl, rfl, rfl, rfl, ⟨rfl, outbound⟩, rfl, rfl, by simp⟩ rfl (by simp)
            (fun _ => rfl)

/-- The end of the frame whose payload is complete. -/
theorem onFrameEnd_spec {h : FrameHeader} {got : Bytes} (head : Bytes)
    (limits : w.config = config) (key : w.clientKey = clientKey) (cleared : w.lastEmitted = none)
    (unborrowed : w.borrowedPayload = none) (wire : SameWire w c) (live : c.Live)
    (parser : w.parser = .idle) (curOpcode : w.curOpcode = some h.opcode)
    (curFin : w.curFin = h.fin) (allowed : ¬ config.maxFramePayload < h.payloadLen)
    (payload : HoldsPayload w c h got) (whole : got.length = h.payloadLen) :
    EndSpec config clientKey w.recvBuf (head.length + h.payloadLen)
      (c.body config h head.length (head ++ got ++ w.recvBuf)) w.onFrameEnd := by
  cases payload with
  | control isControl ctlBuf message =>
      have enough : ¬ (head ++ got ++ w.recvBuf).length < head.length + h.payloadLen := by
        simp only [List.length_append]
        omega
      have bytes : ((head ++ got ++ w.recvBuf).take (head.length + h.payloadLen)).drop
          head.length = w.ctlBuf := by
        rw [List.append_assoc, List.take_length_add_append, List.drop_left, ← whole,
          List.take_left, ctlBuf]
      have boundary : AtBoundary config clientKey { w with curOpcode := none } c :=
        ⟨limits, key, cleared, unborrowed, ⟨wire.state, wire.outbound⟩, parser, message⟩
      rw [Core.body, if_neg allowed, if_pos isControl, if_neg enough, bytes]
      simp only [WsClient.onFrameEnd, curOpcode, isControl, if_true]
      exact endControl_spec boundary isControl _
  | data isData joined msgOpcode msgBuf fits =>
      rw [Core.body_of_joins isData joined allowed]
      exact endData_spec limits key cleared unborrowed wire live parser curOpcode curFin isData
        msgOpcode msgBuf (limits ▸ fits) whole

end Frame

/-! ## Clients after a reading -/

section Reads

variable {config : WsConfig} {clientKey : Text} {mode : Mode} {w : WsClient} {c : Core} {r : Bytes}

/-- A client that has read `d`: at the frame boundary where the decoder stopped, or failed. -/
structure Reads (config : WsConfig) (clientKey : Text) (w : WsClient) (d : Decoded)
    (error : Option WsError) : Prop where
  error : error = d.error
  wire : SameWire w d.core
  stands : d.error = none → ∃ mode, Stands config clientKey w mode d.core d.rest

theorem Reads.prepend {d : Decoded} {error : Option WsError} (reads : Reads config clientKey w d error)
    (items : List Item) : Reads config clientKey w (d.prepend items) error :=
  ⟨reads.error, reads.wire, reads.stands⟩

theorem Holds.reads {items : List Item} (holds : Holds config clientKey w mode c r) :
    Reads config clientKey w ⟨items, c, r, none⟩ none :=
  ⟨rfl, holds.wire, fun _ => ⟨mode, holds.stands⟩⟩

theorem filterMap_event_nil {items : List Item} (silent : ∀ item ∈ items, item.event = none) :
    items.filterMap Item.event = [] := by
  simpa [List.filterMap_eq_nil_iff] using silent

end Reads

end Talaris.Ws
