import Talaris.Ws.Close
import Talaris.Ws.Handshake
import Talaris.Ws.Parser

/-!
# The WebSocket client state machine

`WsClient` turns received bytes into events and queues outbound frames.  Inbound
bytes wait in `recvBuf`, in the header bytes of the parser, or in the message and
control buffers; `pollEvent` moves them along until it has an event, needs more
bytes or fails.  Text payloads are kept as bytes.
-/

namespace Talaris.Ws

open Talaris.Http

/-- Length of the mask key pool. -/
def maskPoolBytes : Nat := 256

structure WsConfig where
  host : Text
  path : Text
  subprotocols : List Text := []
  origin : Option Text := none
  maxMessageSize : Nat := 8 * 1024 * 1024
  maxFramePayload : Nat := 16 * 1024 * 1024
  /-- Initial capacity of the transmit buffer; the receive side has no use for one here. -/
  initialTxBufferCapacity : Option Nat := none
  autoPong : Bool := true
  assumeTextUtf8 : Bool := false
  deriving DecidableEq, Repr

inductive ConnState where
  | connecting
  | isOpen
  | closing
  | closed
  deriving DecidableEq, Repr

inductive Event where
  | handshakeComplete
  | text (payload : Bytes)
  | binary (payload : Bytes)
  | ping (payload : Bytes)
  | pong (payload : Bytes)
  | close (code : Nat) (reason : Bytes)
  deriving DecidableEq, Repr

/-- Data messages only. -/
inductive DataEvent where
  | text (payload : Bytes)
  | binary (payload : Bytes)
  deriving DecidableEq, Repr

/-- The data message of an event, if it is one. -/
def Event.data? : Event → Option DataEvent
  | text payload => some (.text payload)
  | binary payload => some (.binary payload)
  | handshakeComplete | ping _ | pong _ | close _ _ => none

inductive WsError where
  | frame (error : FrameError)
  | handshake (error : HandshakeError)
  | http (error : HttpError)
  | close (error : CloseError)
  | protocol (message : String)
  | invalidState (state : ConnState)
  | utf8Invalid
  | messageTooLarge
  | internal (message : String)
  deriving DecidableEq, Repr

inductive EmitKind where
  | handshakeComplete
  | text
  | binary
  | borrowedText
  | borrowedBinary
  | ping
  | pong
  | close
  deriving DecidableEq, Repr

structure BorrowedPayload where
  payloadStart : Nat
  payloadEnd : Nat
  frameLen : Nat
  deriving DecidableEq, Repr

/-! ## Transmit side -/

/-- The system generator: outcome of each call of `fill`, and how many were made. -/
structure SystemRandom where
  draws : Nat → Option (Nat → UInt8)
  calls : Nat

def SystemRandom.fill (rng : SystemRandom) (len : Nat) : Option Bytes × SystemRandom :=
  ((rng.draws rng.calls).map fun draw => (List.range len).map draw,
    { rng with calls := rng.calls + 1 })

/-- An outbound frame before masking. -/
structure OutFrame where
  fin : Bool
  opcode : OpCode
  payload : Bytes
  deriving DecidableEq, Repr

/-- XOR with the key, repeated. -/
def maskInplace (payload : Bytes) (key : MaskKey) : Bytes :=
  payload.mapIdx fun i b => b ^^^ key.byte i

/-- The bytes of a frame on the wire. -/
def OutFrame.encode (frame : OutFrame) (key : MaskKey) : Bytes :=
  encodeHeader frame.fin frame.opcode (some key) frame.payload.length ++
    maskInplace frame.payload key

/-- The transmit fields of the client.  `queued` is not in the source: it records every
frame written, with its key. -/
structure TxQueue where
  txBuf : Bytes
  txHead : Nat
  capacity : Nat
  maskPool : Bytes
  maskPoolCursor : Nat
  maskRng : SystemRandom
  queued : List (OutFrame × MaskKey)

namespace TxQueue

/-- Bytes not yet taken by the caller. -/
def pendingTx (tx : TxQueue) : Bytes := tx.txBuf.drop tx.txHead

def ackTx (tx : TxQueue) (n : Nat) : TxQueue :=
  if tx.txHead + n = tx.txBuf.length then { tx with txBuf := [], txHead := 0 }
  else { tx with txHead := tx.txHead + n }

/-- `Vec::extend_from_slice`; the capacity at least doubles when it is exceeded. -/
def extend (tx : TxQueue) (bytes : Bytes) : TxQueue :=
  let needed := tx.txBuf.length + bytes.length
  { tx with
    txBuf := tx.txBuf ++ bytes
    capacity := if needed ≤ tx.capacity then tx.capacity else max (2 * tx.capacity) needed }

/-- Move the pending bytes to the front when the buffer would have to grow. -/
def compactTxIfNeeded (tx : TxQueue) (extra : Nat) : TxQueue :=
  if tx.txHead = 0 then tx
  else if tx.capacity < tx.txBuf.length + extra then
    { tx with txBuf := tx.txBuf.drop tx.txHead, txHead := 0 }
  else tx

/-- The next key of the pool.  A failed refill aborts the process in the source, so no run
goes on from it. -/
def nextMask (tx : TxQueue) : MaskKey × TxQueue :=
  let tx :=
    if maskPoolBytes < tx.maskPoolCursor + 4 then
      let (filled, rng) := tx.maskRng.fill maskPoolBytes
      { tx with maskPool := filled.getD tx.maskPool, maskPoolCursor := 0, maskRng := rng }
    else tx
  (MaskKey.ofBytes (tx.maskPool.drop tx.maskPoolCursor),
    { tx with maskPoolCursor := tx.maskPoolCursor + 4 })

def writeFrame (tx : TxQueue) (fin : Bool) (opcode : OpCode) (payload : Bytes) : TxQueue :=
  let (mask, tx) := tx.nextMask
  let header := encodeHeader fin opcode (some mask) payload.length
  let tx := tx.compactTxIfNeeded (header.length + payload.length)
  let tx := (tx.extend header).extend (maskInplace payload mask)
  { tx with queued := tx.queued ++ [(⟨fin, opcode, payload⟩, mask)] }

/-- The frames written so far, mask keys forgotten. -/
def outbound (tx : TxQueue) : List OutFrame := tx.queued.map Prod.fst

end TxQueue

/-! ## The client -/

structure WsClient where
  state : ConnState
  parser : ParserState
  recvBuf : Bytes
  msgBuf : Bytes
  borrowedPayload : Option BorrowedPayload
  msgOpcode : Option OpCode
  /-- `ctl_buf[..ctl_len]` -/
  ctlBuf : Bytes
  curOpcode : Option OpCode
  curFin : Bool
  tx : TxQueue
  config : WsConfig
  clientKey : Text
  handshakeStarted : Bool
  lastEmitted : Option EmitKind

inductive AdvanceResult where
  | emit (kind : EmitKind)
  | progressed
  | needMore
  deriving DecidableEq, Repr

inductive BorrowedResult where
  | emit (kind : EmitKind)
  | waitForMore
  | fallback
  deriving DecidableEq, Repr

/-- `usize::saturating_add` on a 64-bit target. -/
def saturatingAdd64 (a b : Nat) : Nat := min (a + b) (2 ^ 64 - 1)

namespace WsClient

/-- A client with fresh key and mask pool, or the reason why there is none. -/
def newClient [AcceptDigest] (config : WsConfig) (rng : SystemRandom) :
    Except WsError WsClient :=
  match rng.fill 16 with
  | (none, _) => .error (.handshake .rngFailure)
  | (some raw, rng) =>
      if 2 ^ 64 ≤ config.maxMessageSize + maxHeaderLen then
        .error (.protocol "max_message_size overflow")
      else
        let txCap := config.initialTxBufferCapacity.getD (config.maxMessageSize + maxHeaderLen)
        match rng.fill maskPoolBytes with
        | (none, _) => .error (.handshake .rngFailure)
        | (some maskPool, rng) =>
            .ok
              { state := .connecting, parser := .idle, recvBuf := [], msgBuf := [],
                borrowedPayload := none, msgOpcode := none, ctlBuf := [], curOpcode := none,
                curFin := false,
                tx := ⟨[], 0, txCap, maskPool, 0, rng, []⟩,
                config, clientKey := encodeKey raw, handshakeStarted := false,
                lastEmitted := none }

/-- Queue the GET request, once. -/
def beginHandshake (w : WsClient) : WsClient × Except WsError Unit :=
  if w.state ≠ .connecting then (w, .error (.invalidState w.state))
  else if w.handshakeStarted then (w, .error (.protocol "handshake already begun"))
  else
    let tx := w.tx.compactTxIfNeeded 256
    let req : UpgradeRequest :=
      ⟨w.config.host, w.config.path, w.clientKey, w.config.subprotocols, w.config.origin⟩
    ({ w with tx := tx.extend (encodeUpgradeRequest req), handshakeStarted := true }, .ok ())

def feedRecv (w : WsClient) (bytes : Bytes) : WsClient :=
  { w with recvBuf := w.recvBuf ++ bytes }

def pendingTx (w : WsClient) : Bytes := w.tx.pendingTx

def ackTx (w : WsClient) (n : Nat) : WsClient := { w with tx := w.tx.ackTx n }

def writeFrame (w : WsClient) (fin : Bool) (opcode : OpCode) (payload : Bytes) : WsClient :=
  { w with tx := w.tx.writeFrame fin opcode payload }

/-- Queue a Close frame unless one was queued or received. -/
def queueClose (w : WsClient) (code : Nat) (reason : String) : WsClient :=
  if w.state = .closing ∨ w.state = .closed then w
  else
    let w := w.writeFrame true .close (encodeClosePayload code (Text.utf8 reason.toList))
    if w.state = .isOpen then { w with state := .closing } else w

/-! ### Sending -/

def assertCanSendData (w : WsClient) : Except WsError Unit :=
  if w.state = .isOpen then .ok () else .error (.invalidState w.state)

/-- The part the data and ping/pong senders share: state check, then the frame. -/
def sendFrame (w : WsClient) (opcode : OpCode) (payload : Bytes) : WsClient × Except WsError Unit :=
  match w.assertCanSendData with
  | .error e => (w, .error e)
  | .ok () => (w.writeFrame true opcode payload, .ok ())

def sendText (w : WsClient) (payload : Bytes) : WsClient × Except WsError Unit :=
  if !Utf8.valid payload then (w, .error .utf8Invalid) else w.sendFrame .text payload

def sendBinary (w : WsClient) (payload : Bytes) : WsClient × Except WsError Unit :=
  w.sendFrame .binary payload

def sendPing (w : WsClient) (payload : Bytes) : WsClient × Except WsError Unit :=
  if 125 < payload.length then (w, .error (.protocol "ping payload > 125 bytes"))
  else w.sendFrame .ping payload

def sendPong (w : WsClient) (payload : Bytes) : WsClient × Except WsError Unit :=
  if 125 < payload.length then (w, .error (.protocol "pong payload > 125 bytes"))
  else w.sendFrame .pong payload

def sendClose (w : WsClient) (code : Nat) (reason : Bytes) : WsClient × Except WsError Unit :=
  if w.state = .closing ∨ w.state = .closed then (w, .ok ())
  else if w.state ≠ .isOpen then (w, .error (.invalidState w.state))
  else if !isValidEndpointSent code then (w, .error (.close (.invalidCode code)))
  else if 123 < reason.length then (w, .error (.protocol "close reason > 123 bytes"))
  else
    ({ w.writeFrame true .close (encodeClosePayload code reason) with state := .closing }, .ok ())

/-! ### Receiving -/

/-- Drop what the last event borrowed. -/
def clearAfterEmit (w : WsClient) : WsClient :=
  match w.lastEmitted with
  | none | some .handshakeComplete => { w with lastEmitted := none }
  | some .text | some .binary => { w with lastEmitted := none, msgBuf := [] }
  | some .borrowedText | some .borrowedBinary =>
      match w.borrowedPayload with
      | some borrowed =>
          { w with
            lastEmitted := none, borrowedPayload := none,
            recvBuf := w.recvBuf.drop borrowed.frameLen }
      -- a borrowed emit without its range is a panic of the source
      | none => { w with lastEmitted := none }
  | some .ping | some .pong | some .close => { w with lastEmitted := none, ctlBuf := [] }

def borrowedBytes (w : WsClient) : Bytes :=
  match w.borrowedPayload with
  | some borrowed =>
      (w.recvBuf.take borrowed.payloadEnd).drop borrowed.payloadStart
  | none => []

def buildEvent (w : WsClient) : EmitKind → Event
  | .handshakeComplete => .handshakeComplete
  | .text => .text w.msgBuf
  | .binary => .binary w.msgBuf
  | .borrowedText => .text w.borrowedBytes
  | .borrowedBinary => .binary w.borrowedBytes
  | .ping => .ping w.ctlBuf
  | .pong => .pong w.ctlBuf
  | .close =>
      match parseClosePayload w.ctlBuf with
      | .ok (some (code, reason)) => .close code reason
      | .ok none | .error _ => .close 1005 []

/-- Whether a text payload may be handed out. -/
def textAllowed (config : WsConfig) (payload : Bytes) : Bool :=
  config.assumeTextUtf8 || Utf8.valid payload

/-- A complete, unfragmented data frame at the front of `recvBuf` is emitted in place. -/
def tryEmitBorrowedData (w : WsClient) : WsClient × Except WsError BorrowedResult :=
  if w.state ≠ .isOpen ∨ !w.parser.isIdle ∨ w.msgOpcode.isSome ∨ w.recvBuf.isEmpty then
    (w, .ok .fallback)
  else
    match parseHeader w.recvBuf with
    | .error e =>
        (w.queueClose CloseCode.protocolError.asU16 "frame parse error", .error (.frame e))
    | .ok none => (w, .ok .waitForMore)
    | .ok (some (header, headerLen)) =>
        if header.mask.isSome then
          (w.queueClose CloseCode.protocolError.asU16 "server sent masked frame",
            .error (.frame .serverSentMaskedFrame))
        else if !header.fin ∨ (header.opcode ≠ .text ∧ header.opcode ≠ .binary) then
          (w, .ok .fallback)
        else if w.config.maxFramePayload < header.payloadLen then
          (w.queueClose CloseCode.messageTooBig.asU16 "frame too large", .error .messageTooLarge)
        else if w.config.maxMessageSize < header.payloadLen then
          (w.queueClose CloseCode.messageTooBig.asU16 "message exceeds max_message_size",
            .error .messageTooLarge)
        else
          let frameLen := headerLen + header.payloadLen
          if w.recvBuf.length < frameLen then (w, .ok .waitForMore)
          else
            let payload := (w.recvBuf.take frameLen).drop headerLen
            if header.opcode = .text ∧ !textAllowed w.config payload then
              (w.queueClose CloseCode.invalidPayload.asU16 "invalid utf-8", .error .utf8Invalid)
            else
              let kind : EmitKind :=
                if header.opcode = .text then .borrowedText else .borrowedBinary
              ({ w with borrowedPayload := some ⟨headerLen, frameLen, frameLen⟩ },
                .ok (.emit kind))

def advanceHandshake [AcceptDigest] (w : WsClient) : WsClient × Except WsError AdvanceResult :=
  match parseResponse w.recvBuf with
  | .error e => (w, .error (.http e))
  | .ok none => (w, .ok .needMore)
  | .ok (some (response, bodyStart)) =>
      match verifyUpgradeResponse response w.clientKey w.config.subprotocols with
      | .error e => (w, .error (.handshake e))
      | .ok () =>
          ({ w with recvBuf := w.recvBuf.drop bodyStart, state := .isOpen },
            .ok (.emit .handshakeComplete))

/-- The data branch of `on_frame_start`: fragmentation order and the size of the message. -/
def startData (w : WsClient) (h : FrameHeader) : WsClient × Except WsError Unit :=
  if saturatingAdd64 w.msgBuf.length h.payloadLen > w.config.maxMessageSize then
    (w.queueClose CloseCode.messageTooBig.asU16 "message exceeds max_message_size",
      .error .messageTooLarge)
  else ({ w with curOpcode := some h.opcode, curFin := h.fin }, .ok ())

def onFrameStart (w : WsClient) (h : FrameHeader) : WsClient × Except WsError Unit :=
  if w.config.maxFramePayload < h.payloadLen then
    (w.queueClose CloseCode.messageTooBig.asU16 "frame too large", .error .messageTooLarge)
  else if h.opcode.isControl then
    ({ w with ctlBuf := [], curOpcode := some h.opcode, curFin := h.fin }, .ok ())
  else if h.opcode = .continuation then
    if w.msgOpcode.isNone then
      (w.queueClose CloseCode.protocolError.asU16 "continuation without start",
        .error (.protocol "continuation without start"))
    else w.startData h
  else
    if w.msgOpcode.isSome then
      (w.queueClose CloseCode.protocolError.asU16 "new data frame mid-fragmentation",
        .error (.protocol "nested data frame"))
    else { w with msgOpcode := some h.opcode, msgBuf := [] }.startData h

def onReceivedClose (w : WsClient) : WsClient × Except WsError Unit :=
  match parseClosePayload w.ctlBuf with
  | .error e =>
      ({ w.queueClose CloseCode.protocolError.asU16 "bad close payload" with state := .closing },
        .error (.close e))
  | .ok parsed =>
      let echoCode := match parsed with
        | some (code, _) => code
        | none => CloseCode.normal.asU16
      let w := if w.state = .isOpen then w.queueClose echoCode "" else w
      ({ w with state := .closed }, .ok ())

/-- The end of a control frame. -/
def endControl (w : WsClient) (opcode : OpCode) : WsClient × Except WsError (Option EmitKind) :=
  match opcode with
  | .ping =>
      let w := if w.config.autoPong then w.writeFrame true .pong w.ctlBuf else w
      (w, .ok (some .ping))
  | .pong => (w, .ok (some .pong))
  | .close =>
      match w.onReceivedClose with
      | (w, .error e) => (w, .error e)
      | (w, .ok ()) => (w, .ok (some .close))
  | _ => (w, .error (.internal "bad control opcode"))

def onFrameEnd (w : WsClient) : WsClient × Except WsError (Option EmitKind) :=
  match w.curOpcode with
  | none => (w, .error (.internal "FrameEnd without FrameStart"))
  | some opcode =>
      let w := { w with curOpcode := none }
      if opcode.isControl then w.endControl opcode
      else if !w.curFin then (w, .ok none)
      else
        match w.msgOpcode with
        | none => (w, .error (.internal "FrameEnd FIN without active message"))
        | some msgOpcode =>
            let w := { w with msgOpcode := none }
            match msgOpcode with
            | .text =>
                if !textAllowed w.config w.msgBuf then
                  (w.queueClose CloseCode.invalidPayload.asU16 "invalid utf-8", .error .utf8Invalid)
                else (w, .ok (some .text))
            | .binary => (w, .ok (some .binary))
            | _ => (w, .error (.internal "non-data msg_opcode"))

/-- Payload bytes go to the buffer of the current frame. -/
def takePayload (w : WsClient) (slice : Bytes) : WsClient :=
  match w.curOpcode with
  | none => w
  | some opcode =>
      if opcode.isControl then { w with ctlBuf := w.ctlBuf ++ slice }
      else { w with msgBuf := w.msgBuf ++ slice }

def advanceFrame (w : WsClient) : WsClient × Except WsError AdvanceResult :=
  match feedOne w.parser w.recvBuf with
  | (parser, .error e) =>
      ({ w with parser }.queueClose CloseCode.protocolError.asU16 "frame parse error",
        .error (.frame e))
  | (parser, .ok (.needMore consumed)) =>
      ({ w with parser, recvBuf := w.recvBuf.drop consumed }, .ok .needMore)
  | (parser, .ok (.event consumed event)) =>
      let w := { w with parser, recvBuf := w.recvBuf.drop consumed }
      match event with
      | .frameStart h =>
          match w.onFrameStart h with
          | (w, .error e) => (w, .error e)
          | (w, .ok ()) => (w, .ok .progressed)
      | .payloadChunk slice => (w.takePayload slice, .ok .progressed)
      | .frameEnd =>
          match w.onFrameEnd with
          | (w, .error e) => (w, .error e)
          | (w, .ok (some kind)) => (w, .ok (.emit kind))
          | (w, .ok none) => (w, .ok .progressed)

/-- One step of handshake or frame processing. -/
def advance [AcceptDigest] (w : WsClient) : WsClient × Except WsError AdvanceResult :=
  match w.state with
  | .connecting => w.advanceHandshake
  | .isOpen | .closing => w.advanceFrame
  | .closed => (w, .ok .needMore)

/-- After an error the client is closed, unless its Close frame is on the way out. -/
def closeOnError (w : WsClient) : WsClient :=
  if w.state ≠ .closing then { w with state := .closed } else w

/-! ### Termination of the poll loop

Every turn consumes bytes, or moves the parser on without any: from the header to the
payload, from the payload back to idle. -/

/-- What the loop has left to do. -/
def work (w : WsClient) : Nat := 3 * w.recvBuf.length + w.parser.rank

section QueueClose

variable (w : WsClient) (code : Nat) (reason : String)

@[simp] theorem queueClose_recvBuf : (w.queueClose code reason).recvBuf = w.recvBuf := by
  unfold queueClose
  split <;> [rfl; (dsimp only; split <;> rfl)]

@[simp] theorem queueClose_parserState : (w.queueClose code reason).parser = w.parser := by
  unfold queueClose
  split <;> [rfl; (dsimp only; split <;> rfl)]

@[simp] theorem queueClose_lastEmitted :
    (w.queueClose code reason).lastEmitted = w.lastEmitted := by
  unfold queueClose
  split <;> [rfl; (dsimp only; split <;> rfl)]

end QueueClose

@[simp] theorem startData_input (w : WsClient) (h : FrameHeader) :
    (w.startData h).1.recvBuf = w.recvBuf ∧ (w.startData h).1.parser = w.parser := by
  unfold startData
  split <;> simp

theorem onFrameStart_input (w : WsClient) (h : FrameHeader) :
    (w.onFrameStart h).1.recvBuf = w.recvBuf ∧ (w.onFrameStart h).1.parser = w.parser := by
  unfold onFrameStart
  repeat' split
  all_goals simp

theorem onReceivedClose_input (w : WsClient) :
    (w.onReceivedClose).1.recvBuf = w.recvBuf ∧ (w.onReceivedClose).1.parser = w.parser := by
  unfold onReceivedClose
  split
  next => simp
  next =>
    dsimp only
    split <;> simp

theorem endControl_input (w : WsClient) (opcode : OpCode) :
    (w.endControl opcode).1.recvBuf = w.recvBuf ∧
      (w.endControl opcode).1.parser = w.parser := by
  have received := onReceivedClose_input w
  unfold endControl
  cases opcode with
  | ping =>
      dsimp only
      split <;> simp [writeFrame]
  | close =>
      dsimp only
      split <;> simp_all
  | continuation | text | binary | pong => simp

theorem onFrameEnd_input (w : WsClient) :
    (w.onFrameEnd).1.recvBuf = w.recvBuf ∧ (w.onFrameEnd).1.parser = w.parser := by
  unfold onFrameEnd
  split
  next => simp
  next opcode current =>
    dsimp only
    split
    next => exact endControl_input _ _
    next =>
      repeat' split
      all_goals simp

theorem takePayload_input (w : WsClient) (slice : Bytes) :
    (w.takePayload slice).recvBuf = w.recvBuf ∧ (w.takePayload slice).parser = w.parser := by
  unfold takePayload
  repeat' split
  all_goals simp

/-- A frame step that goes on, or ends in an event, leaves less to do. -/
theorem advanceFrame_work {w w' : WsClient} {result : AdvanceResult}
    (stepped : w.advanceFrame = (w', .ok result)) (moved : result ≠ .needMore) :
    w'.work < w.work := by
  unfold advanceFrame at stepped
  split at stepped
  next => simp at stepped
  next =>
    simp only [Prod.mk.injEq, Except.ok.injEq] at stepped
    exact absurd stepped.2.symm moved
  next parser consumed event fed =>
    have less := feedOne_event_lt fed
    -- each handler keeps the bytes and the parser state that `feedOne` left
    suffices kept : w'.recvBuf = w.recvBuf.drop consumed ∧ w'.parser = parser by
      simp only [work, kept, List.length_drop]
      exact less
    dsimp only at stepped
    cases event with
    | frameStart h =>
        have input := onFrameStart_input { w with parser, recvBuf := w.recvBuf.drop consumed } h
        dsimp only at stepped
        split at stepped
        next => simp at stepped
        next started =>
          simp only [Prod.mk.injEq, Except.ok.injEq] at stepped
          rw [started, stepped.1] at input
          exact input
    | payloadChunk slice =>
        have input := takePayload_input { w with parser, recvBuf := w.recvBuf.drop consumed } slice
        simp only [Prod.mk.injEq, Except.ok.injEq] at stepped
        rw [stepped.1] at input
        exact input
    | frameEnd =>
        have input := onFrameEnd_input { w with parser, recvBuf := w.recvBuf.drop consumed }
        dsimp only at stepped
        split at stepped
        next => simp at stepped
        next kind ended =>
          simp only [Prod.mk.injEq, Except.ok.injEq] at stepped
          rw [ended, stepped.1] at input
          exact input
        next ended =>
          simp only [Prod.mk.injEq, Except.ok.injEq] at stepped
          rw [ended, stepped.1] at input
          exact input

theorem advanceHandshake_work [AcceptDigest] {w w' : WsClient} {result : AdvanceResult}
    (stepped : w.advanceHandshake = (w', .ok result)) (moved : result ≠ .needMore) :
    w'.work < w.work := by
  unfold advanceHandshake at stepped
  split at stepped
  next => simp at stepped
  next =>
    simp only [Prod.mk.injEq, Except.ok.injEq] at stepped
    exact absurd stepped.2.symm moved
  next response bodyStart parsed =>
    split at stepped
    next => simp at stepped
    next =>
      simp only [Prod.mk.injEq, Except.ok.injEq] at stepped
      obtain ⟨lower, upper⟩ := parseResponse_bounds parsed
      rw [← stepped.1]
      simp only [work, List.length_drop]
      omega

theorem advance_work [AcceptDigest] {w w' : WsClient} {result : AdvanceResult}
    (stepped : w.advance = (w', .ok result)) (moved : result ≠ .needMore) :
    w'.work < w.work := by
  unfold advance at stepped
  split at stepped
  next => exact advanceHandshake_work stepped moved
  next => exact advanceFrame_work stepped moved
  next => exact advanceFrame_work stepped moved
  next =>
    simp only [Prod.mk.injEq, Except.ok.injEq] at stepped
    exact absurd stepped.2.symm moved

theorem tryEmitBorrowedData_fallback {w w' : WsClient}
    (tried : w.tryEmitBorrowedData = (w', .ok .fallback)) : w' = w := by
  unfold tryEmitBorrowedData at tried
  dsimp only at tried
  repeat' split at tried
  all_goals first | exact (congrArg Prod.fst tried).symm | simp at tried

/-! ### Polling -/

/-- How a turn of the poll loop ends. -/
inductive Turn where
  | again
  | done (result : Option (Except WsError Event))

/-- Remember what was emitted and build the event from it. -/
def emitted (w : WsClient) (kind : EmitKind) : WsClient × Turn :=
  ({ w with lastEmitted := some kind }, .done (some (.ok (w.buildEvent kind))))

/-- The turn after a step of `advance`. -/
def afterAdvance : WsClient × Except WsError AdvanceResult → WsClient × Turn
  | (w, .ok (.emit kind)) => w.emitted kind
  | (w, .ok .progressed) => (w, .again)
  | (w, .ok .needMore) => (w, .done none)
  | (w, .error e) => (w.closeOnError, .done (some (.error e)))

/-- One turn of the loop of `poll_event`. -/
def pollTurn [AcceptDigest] (w : WsClient) : WsClient × Turn :=
  if w.state = .closed then (w, .done none)
  else
    match w.tryEmitBorrowedData with
    | (w, .ok (.emit kind)) => w.emitted kind
    | (w, .ok .waitForMore) => (w, .done none)
    | (w, .error e) => (w.closeOnError, .done (some (.error e)))
    | (w, .ok .fallback) => afterAdvance w.advance

theorem pollTurn_work [AcceptDigest] {w w' : WsClient} (turned : w.pollTurn = (w', .again)) :
    w'.work < w.work := by
  unfold pollTurn at turned
  split at turned
  next => simp at turned
  next =>
    split at turned
    next => simp [emitted] at turned
    next => simp at turned
    next => simp at turned
    next w₁ tried =>
      cases tryEmitBorrowedData_fallback tried
      unfold afterAdvance at turned
      split at turned
      next => simp [emitted] at turned
      next w₂ stepped =>
        simp only [Prod.mk.injEq, and_true] at turned
        rw [← turned]
        exact advance_work stepped (by decide)
      next => simp at turned
      next => simp at turned

/-- The loop of `poll_event`. -/
def pollLoop [AcceptDigest] (w : WsClient) : WsClient × Option (Except WsError Event) :=
  match _turned : w.pollTurn with
  | (w, .again) => pollLoop w
  | (w, .done result) => (w, result)
  termination_by w.work
  decreasing_by exact pollTurn_work _turned

/-- The next event; what it borrows stays until the next call. -/
def pollEvent [AcceptDigest] (w : WsClient) : WsClient × Option (Except WsError Event) :=
  w.clearAfterEmit.pollLoop

end WsClient

end Talaris.Ws
