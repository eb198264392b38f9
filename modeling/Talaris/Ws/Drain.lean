import Talaris.Observability

/-!
# The data-only paths

Complete, unfragmented data frames are read by a header parser of their own and
handed to the sink straight from the ingress bytes or from `recvBuf`; every other
frame goes through `pollEvent`.  The source has this loop eight times: over ingress
bytes or `recvBuf`, one message or a batch per sink call, with or without metadata.
Here it is one definition over `SinkOps`, and each member is an instance.
-/

namespace Talaris.Ws

inductive DirectDataResult where
  | drained
  | waitForMore
  | fallback
  deriving DecidableEq, Repr

structure FastDataHeader where
  opcode : OpCode
  headerLen : Nat
  payloadLen : Nat
  deriving DecidableEq, Repr

inductive FastDataHeaderResult where
  | parsed (header : FastDataHeader)
  | needMore
  | fallback
  deriving DecidableEq, Repr

inductive FastDataFrameResult where
  | parsed (event : DataEvent) (frameLen : Nat)
  | needMore
  | fallback
  deriving DecidableEq, Repr

inductive FastDataFrameError where
  | frame (error : FrameError)
  | frameTooLarge
  | messageTooLarge
  | utf8Invalid
  deriving DecidableEq, Repr

/-- Header of a final, unmasked data frame with a 7-bit or 16-bit length. -/
def parseServerDataHeaderFast (buf : Bytes) : Except FrameError FastDataHeaderResult :=
  match buf with
  | b0 :: b1 :: rest =>
      if b0 &&& 0x70 != 0 then .error .rsvBitsSet
      else if b1 &&& 0x80 != 0 then .error .serverSentMaskedFrame
      else if b0 &&& 0x80 == 0 then .ok .fallback
      else
        let op := b0 &&& 0x0F
        if op == 0x1 || op == 0x2 then
          let opcode : OpCode := if op == 0x1 then .text else .binary
          let len7 := b1 &&& 0x7F
          if len7 ≤ 125 then .ok (.parsed ⟨opcode, 2, len7.toNat⟩)
          else if len7 == 126 then
            if rest.length < 2 then .ok .needMore
            else
              let val := beNat (rest.take 2)
              if val < 126 then .error .nonMinimalPayloadLength
              else .ok (.parsed ⟨opcode, 4, val⟩)
          else .ok .fallback
        else if op == 0x0 || op == 0x8 || op == 0x9 || op == 0xA then .ok .fallback
        else .error (.invalidOpCode op)
  | _ => .ok .needMore

/-- A complete frame for the direct path. -/
def parseCompleteServerDataFrame (config : WsConfig) (bytes : Bytes) :
    Except FastDataFrameError FastDataFrameResult :=
  match parseServerDataHeaderFast bytes with
  | .error e => .error (.frame e)
  | .ok .needMore => .ok .needMore
  | .ok .fallback => .ok .fallback
  | .ok (.parsed header) =>
      if config.maxFramePayload < header.payloadLen then .error .frameTooLarge
      else if config.maxMessageSize < header.payloadLen then .error .messageTooLarge
      else
        let frameLen := header.headerLen + header.payloadLen
        if bytes.length < frameLen then .ok .needMore
        else
          let payload := (bytes.take frameLen).drop header.headerLen
          if header.opcode = .text then
            if WsClient.textAllowed config payload then .ok (.parsed (.text payload) frameLen)
            else .error .utf8Invalid
          else .ok (.parsed (.binary payload) frameLen)

theorem parseServerDataHeaderFast_headerLen {buf : Bytes} {header : FastDataHeader}
    (parsed : parseServerDataHeaderFast buf = .ok (.parsed header)) : 2 ≤ header.headerLen := by
  unfold parseServerDataHeaderFast at parsed
  dsimp only at parsed
  repeat' split at parsed
  all_goals simp only [Except.ok.injEq, FastDataHeaderResult.parsed.injEq, reduceCtorEq] at parsed
  all_goals simp [← parsed]

theorem parseCompleteServerDataFrame_size {config : WsConfig} {bytes : Bytes}
    {event : DataEvent} {frameLen : Nat}
    (parsed : parseCompleteServerDataFrame config bytes = .ok (.parsed event frameLen)) :
    2 ≤ frameLen ∧ frameLen ≤ bytes.length := by
  unfold parseCompleteServerDataFrame at parsed
  split at parsed
  next => cases parsed
  next => cases parsed
  next => cases parsed
  next header found =>
    have atLeast := parseServerDataHeaderFast_headerLen found
    dsimp only at parsed
    repeat' split at parsed
    all_goals simp only [Except.ok.injEq, FastDataFrameResult.parsed.injEq, reduceCtorEq] at parsed
    all_goals omega

/-! ## One loop for all sinks -/

/-- What a drain does to its sink state: a direct message, the end of a run of direct
messages with its chunk-end flag, a message of the general path. -/
structure SinkOps (σ : Type) where
  push : σ → DataEvent → σ
  flush : Bool → σ → σ
  single : σ → DataEvent → σ

section Drains

variable {σ : Type} (ops : SinkOps σ)

/-- Outcome of a run of direct frames. -/
structure DirectRun (σ : Type) where
  sink : σ
  events : Nat
  rest : Bytes
  result : Except FastDataFrameError DirectDataResult

/-- The loop over direct frames. -/
def directLoop (config : WsConfig) (sink : σ) (events : Nat) (bytes : Bytes) : DirectRun σ :=
  if bytes.isEmpty then ⟨ops.flush true sink, events, bytes, .ok .drained⟩
  else
    match _parsed : parseCompleteServerDataFrame config bytes with
    | .ok (.parsed event frameLen) =>
        directLoop config (ops.push sink event) (events + 1) (bytes.drop frameLen)
    | .ok .needMore => ⟨ops.flush true sink, events, bytes, .ok .waitForMore⟩
    | .ok .fallback => ⟨ops.flush false sink, events, bytes, .ok .fallback⟩
    | .error e => ⟨ops.flush true sink, events, bytes, .error e⟩
  termination_by bytes.length
  decreasing_by
    obtain ⟨atLeast, bound⟩ := parseCompleteServerDataFrame_size _parsed
    simp only [List.length_drop]
    omega

namespace WsClient

/-- Close frame and error for a direct frame that was refused. -/
def queueFastDataFrameError (w : WsClient) : FastDataFrameError → WsClient × WsError
  | .frame e => (w.queueClose CloseCode.protocolError.asU16 "frame parse error", .frame e)
  | .frameTooLarge => (w.queueClose CloseCode.messageTooBig.asU16 "frame too large", .messageTooLarge)
  | .messageTooLarge =>
      (w.queueClose CloseCode.messageTooBig.asU16 "message exceeds max_message_size",
        .messageTooLarge)
  | .utf8Invalid => (w.queueClose CloseCode.invalidPayload.asU16 "invalid utf-8", .utf8Invalid)

/-- Direct frames at the front of `recvBuf`. -/
def tryDrain (w : WsClient) (sink : σ) :
    WsClient × σ × Except WsError (Nat × DirectDataResult) :=
  if w.state ≠ .isOpen ∨ !w.parser.isIdle ∨ w.msgOpcode.isSome ∨ w.recvBuf.isEmpty then
    (w, sink, .ok (0, .fallback))
  else
    let run := directLoop ops w.config sink 0 w.recvBuf
    let w := { w with recvBuf := run.rest }
    match run.result with
    | .ok result => (w, run.sink, .ok (run.events, result))
    | .error e =>
        let (w, e) := w.queueFastDataFrameError e
        (w, run.sink, .error e)

/-- The parser, the message and the receive buffer are all empty. -/
def canDrainIngressDirectly (w : WsClient) : Bool :=
  w.state = .isOpen && w.parser.isIdle && w.msgOpcode.isNone && w.recvBuf.isEmpty &&
    w.borrowedPayload.isNone

/-- Direct frames at the front of the caller's bytes; the bytes left over are returned. -/
def tryDrainIngress (w : WsClient) (bytes : Bytes) (sink : σ) :
    WsClient × σ × Except WsError (Nat × Bytes × DirectDataResult) :=
  let run := directLoop ops w.config sink 0 bytes
  match run.result with
  | .ok result => (w, run.sink, .ok (run.events, run.rest, result))
  | .error e =>
      let (w, e) := w.queueFastDataFrameError e
      (w, run.sink, .error e)

/-! ### Termination of the drain loop -/

theorem clearAfterEmit_work (w : WsClient) : w.clearAfterEmit.work ≤ w.work := by
  unfold clearAfterEmit
  repeat' split
  all_goals simp only [work, List.length_drop]
  all_goals omega

theorem tryEmitBorrowedData_emit_work {w w' : WsClient} {kind : EmitKind}
    (tried : w.tryEmitBorrowedData = (w', .ok (.emit kind))) :
    { w' with lastEmitted := some kind }.clearAfterEmit.work < w.work := by
  unfold tryEmitBorrowedData at tried
  dsimp only at tried
  split at tried
  next => simp at tried
  next =>
    split at tried
    next => simp at tried
    next => simp at tried
    next header headerLen parsed =>
      obtain ⟨size, -⟩ := parseHeader_some_minNeeded parsed
      have atLeast := minNeeded_ge w.recvBuf
      repeat' split at tried
      all_goals simp only [Prod.mk.injEq, Except.ok.injEq, BorrowedResult.emit.injEq,
        reduceCtorEq, and_false] at tried
      all_goals
        obtain ⟨rfl, rfl⟩ := tried
        simp only [clearAfterEmit, work, List.length_drop]
        omega

theorem pollTurn_event_work [AcceptDigest] {w w' : WsClient} {event : Event}
    (turned : w.pollTurn = (w', .done (some (.ok event)))) :
    w'.clearAfterEmit.work < w.work := by
  unfold pollTurn at turned
  split at turned
  next => simp at turned
  next =>
    split at turned
    next w₁ kind tried =>
      simp only [emitted, Prod.mk.injEq] at turned
      rw [← turned.1]
      exact tryEmitBorrowedData_emit_work tried
    next => simp at turned
    next => simp at turned
    next w₁ tried =>
      cases tryEmitBorrowedData_fallback tried
      unfold afterAdvance at turned
      split at turned
      next w₂ kind stepped =>
        simp only [emitted, Prod.mk.injEq] at turned
        have less := advance_work stepped (by simp)
        have cleared := clearAfterEmit_work { w₂ with lastEmitted := some kind }
        rw [← turned.1]
        exact Nat.lt_of_le_of_lt cleared less
      next => simp at turned
      next => simp at turned
      next => simp at turned

theorem pollLoop_event_work [AcceptDigest] {w w' : WsClient} {event : Event}
    (polled : w.pollLoop = (w', some (.ok event))) : w'.clearAfterEmit.work < w.work := by
  fun_induction pollLoop w with
  | case1 w w₁ turned ih => exact Nat.lt_trans (ih polled) (pollTurn_work turned)
  | case2 w w₁ result turned =>
      simp only [Prod.mk.injEq] at polled
      rw [polled.1, polled.2] at turned
      exact pollTurn_event_work turned

theorem directLoop_rest (config : WsConfig) (sink : σ) (events : Nat) (bytes : Bytes) :
    (directLoop ops config sink events bytes).rest.length ≤ bytes.length ∧
      ((directLoop ops config sink events bytes).result = .ok .drained →
        (directLoop ops config sink events bytes).rest = []) := by
  fun_induction directLoop ops config sink events bytes with
  | case1 sink events bytes empty => exact ⟨Nat.le_refl _, fun _ => by simpa using empty⟩
  | case2 sink events bytes nonempty event frameLen parsed ih =>
      refine ⟨Nat.le_trans ih.1 ?_, ih.2⟩
      simp only [List.length_drop]
      omega
  | case3 => simp
  | case4 => simp
  | case5 => simp

/-- How a turn of the drain loop ends. -/
inductive DrainTurn where
  | again (events : Nat)
  | done (result : Except WsError Nat)

/-- The general path of a drain: one event of `pollEvent`. -/
def drainEvent [AcceptDigest] (w : WsClient) (sink : σ) (events : Nat) :
    WsClient × σ × DrainTurn :=
  match w.pollEvent with
  | (w, none) => (w, sink, .done (.ok events))
  | (w, some (.error e)) => (w, sink, .done (.error e))
  | (w, some (.ok event)) =>
      let sink :=
        match event.data? with
        | some data => ops.single sink data
        | none => sink
      (w, sink, .again (events + 1))

/-- One turn: direct frames first, then one event of the general path. -/
def drainTurn [AcceptDigest] (w : WsClient) (sink : σ) (events : Nat) :
    WsClient × σ × DrainTurn :=
  match w.clearAfterEmit.tryDrain ops sink with
  | (w, sink, .error e) => (w, sink, .done (.error e))
  | (w, sink, .ok (direct, .drained)) => (w, sink, .again (events + direct))
  | (w, sink, .ok (direct, .waitForMore)) => (w, sink, .done (.ok (events + direct)))
  | (w, sink, .ok (direct, .fallback)) => w.drainEvent ops sink (events + direct)

theorem tryDrain_work {w w' : WsClient} {sink sink' : σ} {direct : Nat}
    {result : DirectDataResult} (tried : w.tryDrain ops sink = (w', sink', .ok (direct, result))) :
    w'.work ≤ w.work ∧ (result = .drained → w'.work < w.work) := by
  unfold tryDrain at tried
  split at tried
  next =>
    simp only [Prod.mk.injEq, Except.ok.injEq] at tried
    obtain ⟨rfl, -, -, rfl⟩ := tried
    simp
  next ready =>
    obtain ⟨shorter, emptied⟩ := directLoop_rest ops w.config sink 0 w.recvBuf
    have nonempty : 0 < w.recvBuf.length := by
      apply List.length_pos_of_ne_nil
      intro empty
      exact ready (by simp [empty])
    dsimp only at tried
    split at tried
    next result' found =>
      simp only [Prod.mk.injEq, Except.ok.injEq] at tried
      obtain ⟨rfl, -, -, rfl⟩ := tried
      refine ⟨?_, fun drained => ?_⟩
      · simp only [work]
        omega
      · simp only [work, emptied (drained ▸ found), List.length_nil]
        omega
    next => simp at tried

@[simp] theorem clearAfterEmit_state (w : WsClient) : w.clearAfterEmit.state = w.state := by
  unfold clearAfterEmit
  repeat' split
  all_goals rfl

@[simp] theorem clearAfterEmit_config (w : WsClient) : w.clearAfterEmit.config = w.config := by
  unfold clearAfterEmit
  repeat' split
  all_goals rfl

@[simp] theorem clearAfterEmit_clientKey (w : WsClient) :
    w.clearAfterEmit.clientKey = w.clientKey := by
  unfold clearAfterEmit
  repeat' split
  all_goals rfl

@[simp] theorem clearAfterEmit_tx (w : WsClient) : w.clearAfterEmit.tx = w.tx := by
  unfold clearAfterEmit
  repeat' split
  all_goals rfl

theorem clearAfterEmit_idle {w : WsClient} (cleared : w.lastEmitted = none) :
    w.clearAfterEmit = w := by
  cases w
  simp_all [clearAfterEmit]

theorem clearAfterEmit_lastEmitted (w : WsClient) : w.clearAfterEmit.lastEmitted = none := by
  unfold clearAfterEmit
  repeat' split
  all_goals rfl

theorem tryDrain_lastEmitted (w : WsClient) (sink : σ) :
    (w.tryDrain ops sink).1.lastEmitted = w.lastEmitted := by
  unfold tryDrain
  split
  next => rfl
  next =>
    dsimp only
    split
    next => rfl
    next e found => cases e <;> simp [queueFastDataFrameError]

theorem drainTurn_work [AcceptDigest] {w w' : WsClient} {sink sink' : σ} {events more : Nat}
    (turned : w.drainTurn ops sink events = (w', sink', .again more)) :
    w'.clearAfterEmit.work < w.clearAfterEmit.work := by
  unfold drainTurn at turned
  split at turned
  next => simp at turned
  next w₁ sink₁ direct tried =>
    simp only [Prod.mk.injEq] at turned
    rw [← turned.1]
    exact Nat.lt_of_le_of_lt (clearAfterEmit_work w₁) ((tryDrain_work ops tried).2 rfl)
  next => simp at turned
  next w₁ sink₁ direct tried =>
    have cleared : w₁.clearAfterEmit = w₁ := by
      apply clearAfterEmit_idle
      have kept := tryDrain_lastEmitted ops w.clearAfterEmit sink
      rw [tried, clearAfterEmit_lastEmitted] at kept
      exact kept
    unfold drainEvent at turned
    split at turned
    next => simp at turned
    next => simp at turned
    next w₂ event polled =>
      simp only [Prod.mk.injEq] at turned
      rw [← turned.1]
      rw [pollEvent, cleared] at polled
      exact Nat.lt_of_lt_of_le (pollLoop_event_work polled) (tryDrain_work ops tried).1

/-- The loop of the `drain_data_*` family over buffered bytes. -/
def drain [AcceptDigest] (w : WsClient) (sink : σ) (events : Nat) :
    WsClient × σ × Except WsError Nat :=
  match _turned : w.drainTurn ops sink events with
  | (w, sink, .again events) => drain w sink events
  | (w, sink, .done result) => (w, sink, result)
  termination_by w.clearAfterEmit.work
  decreasing_by exact drainTurn_work ops _turned

/-- The `drain_data_*_from_ingress` family: direct frames out of the caller's bytes while
nothing is buffered, and only what is left goes to `recvBuf`. -/
def drainFromIngress [AcceptDigest] (w : WsClient) (bytes : Bytes) (sink : σ) :
    WsClient × σ × Except WsError Nat :=
  let w := w.clearAfterEmit
  if bytes.isEmpty then w.drain ops sink 0
  else if w.canDrainIngressDirectly then
    match w.tryDrainIngress ops bytes sink with
    | (w, sink, .error e) => (w, sink, .error e)
    | (w, sink, .ok (events, _, .drained)) => (w, sink, .ok events)
    | (w, sink, .ok (events, rest, .waitForMore)) => (w.feedRecv rest, sink, .ok events)
    | (w, sink, .ok (events, rest, .fallback)) => (w.feedRecv rest).drain ops sink events
  else (w.feedRecv bytes).drain ops sink 0

end WsClient

end Drains

/-! ## The members of the family -/

/-- The error of a result. -/
def errorOf {α : Type} : Except WsError α → Option WsError
  | .ok _ => none
  | .error e => some e

/-- One sink call per message. -/
def dataEventOps : SinkOps (List DataEvent) where
  push calls event := calls ++ [event]
  flush _ calls := calls
  single calls event := calls ++ [event]

/-- Sink calls so far and the batch being filled. -/
structure BatchSink (ε : Type) where
  calls : List (EventBatch ε) := []
  batch : EventBatch ε := EventBatch.empty

namespace BatchSink

/-- `flush_data_event_batch`: an empty batch is not delivered. -/
def flushDataEventBatch (chunkEnd : Bool) (sink : BatchSink DataEvent) : BatchSink DataEvent :=
  if sink.batch.events.isEmpty then sink
  else ⟨sink.calls ++ [{ sink.batch with chunkEnd }], EventBatch.empty⟩

end BatchSink

/-- Batches of up to 32 messages. -/
def dataEventBatchOps : SinkOps (BatchSink DataEvent) where
  push sink event :=
    let sink := if sink.batch.isFull then sink.flushDataEventBatch false else sink
    { sink with batch := sink.batch.push event }
  flush chunkEnd sink := sink.flushDataEventBatch chunkEnd
  single sink event := { sink with calls := sink.calls ++ [EventBatch.single event] }

/-- Counters and clock of a marked drain over one plaintext chunk. -/
structure MarkedState where
  clock : Clock
  messageIndex : Nat
  messageSequence : Nat
  chunkPriorSinkServiceNanos : Nat

namespace MarkedState

def nextMarkedMeta (baseMeta : DataEventMeta) (marked : MarkedState) :
    DataEventMeta × MarkedState :=
  let (stamp, clock) :=
    baseMeta.wsPayloadReadyNow marked.clock marked.messageIndex marked.messageSequence
  (stamp.withChunkPriorSinkServiceNanos marked.chunkPriorSinkServiceNanos,
    { marked with
      clock
      messageIndex := min (marked.messageIndex + 1) u16Max
      messageSequence := min (marked.messageSequence + 1) u64Max })

/-- Clock readings around one sink call. -/
def serviced (marked : MarkedState) (sampled : Bool) : MarkedState :=
  if sampled then
    let (started, clock) := marked.clock.monotonicNanosNow
    let (ended, clock) := clock.monotonicNanosNow
    { marked with
      clock
      chunkPriorSinkServiceNanos :=
        min (marked.chunkPriorSinkServiceNanos + (ended - started)) u64Max }
  else marked

end MarkedState

/-- Sink calls of a marked drain with one message each. -/
structure MarkedSink where
  calls : List MarkedDataEvent := []
  marked : MarkedState

/-- `emit_marked_text` and `emit_marked_binary` -/
def MarkedSink.emit (baseMeta : DataEventMeta) (sink : MarkedSink) (event : DataEvent) :
    MarkedSink :=
  let (stamp, marked) := sink.marked.nextMarkedMeta baseMeta
  ⟨sink.calls ++ [⟨event, stamp⟩], marked.serviced stamp.sampled⟩

def markedDataEventOps (baseMeta : DataEventMeta) : SinkOps MarkedSink where
  push sink event := sink.emit baseMeta event
  flush _ sink := sink
  single sink event := sink.emit baseMeta event

/-- Sink calls of a marked batch drain. -/
structure MarkedBatchSink where
  calls : List MarkedDataEventBatch := []
  batch : MarkedDataEventBatch := EventBatch.empty
  marked : MarkedState

namespace MarkedBatchSink

def flushMarkedDataEventBatch (sampled chunkEnd : Bool) (sink : MarkedBatchSink) :
    MarkedBatchSink :=
  if sink.batch.events.isEmpty then sink
  else
    ⟨sink.calls ++ [{ sink.batch with chunkEnd }], EventBatch.empty,
      sink.marked.serviced sampled⟩

end MarkedBatchSink

def markedDataEventBatchOps (baseMeta : DataEventMeta) : SinkOps MarkedBatchSink where
  push sink event :=
    let sink :=
      if sink.batch.isFull then sink.flushMarkedDataEventBatch baseMeta.sampled false else sink
    let (stamp, marked) := sink.marked.nextMarkedMeta baseMeta
    { sink with batch := sink.batch.push ⟨event, stamp⟩, marked }
  flush chunkEnd sink := sink.flushMarkedDataEventBatch baseMeta.sampled chunkEnd
  single sink event :=
    let (stamp, marked) := sink.marked.nextMarkedMeta baseMeta
    { sink with
      calls := sink.calls ++ [EventBatch.single ⟨event, stamp⟩]
      marked := marked.serviced stamp.sampled }

namespace WsClient

variable [AcceptDigest] (w : WsClient)

def drainDataEvents : WsClient × List DataEvent × Except WsError Nat :=
  w.drain dataEventOps [] 0

def drainDataEventsFromIngress (bytes : Bytes) :
    WsClient × List DataEvent × Except WsError Nat :=
  w.drainFromIngress dataEventOps bytes []

def drainDataEventBatches : WsClient × BatchSink DataEvent × Except WsError Nat :=
  w.drain dataEventBatchOps {} 0

def drainDataEventBatchesFromIngress (bytes : Bytes) :
    WsClient × BatchSink DataEvent × Except WsError Nat :=
  w.drainFromIngress dataEventBatchOps bytes {}

/-- Fresh per-chunk counters, the message sequence carried on. -/
def markedStart (clock : Clock) (messageSequence : Nat) : MarkedState :=
  ⟨clock, 0, messageSequence, 0⟩

def drainDataEventsMarked (baseMeta : DataEventMeta) (clock : Clock) :
    WsClient × MarkedSink × Except WsError Nat :=
  w.drain (markedDataEventOps baseMeta) ⟨[], markedStart clock baseMeta.messageSequence⟩ 0

def drainDataEventsFromIngressMarkedWithMessageSequence (bytes : Bytes)
    (baseMeta : DataEventMeta) (clock : Clock) (messageSequence : Nat) :
    WsClient × MarkedSink × Except WsError Nat :=
  w.drainFromIngress (markedDataEventOps baseMeta) bytes ⟨[], markedStart clock messageSequence⟩

def drainDataEventBatchesMarked (baseMeta : DataEventMeta) (clock : Clock) :
    WsClient × MarkedBatchSink × Except WsError Nat :=
  w.drain (markedDataEventBatchOps baseMeta)
    ⟨[], EventBatch.empty, markedStart clock baseMeta.messageSequence⟩ 0

def drainDataEventBatchesFromIngressMarkedWithMessageSequence (bytes : Bytes)
    (baseMeta : DataEventMeta) (clock : Clock) (messageSequence : Nat) :
    WsClient × MarkedBatchSink × Except WsError Nat :=
  w.drainFromIngress (markedDataEventBatchOps baseMeta) bytes
    ⟨[], EventBatch.empty, markedStart clock messageSequence⟩

/-- The public form takes the first sequence number from the metadata. -/
def drainDataEventBatchesFromIngressMarked (bytes : Bytes) (baseMeta : DataEventMeta)
    (clock : Clock) : WsClient × MarkedBatchSink × Except WsError Nat :=
  w.drainDataEventBatchesFromIngressMarkedWithMessageSequence bytes baseMeta clock
    baseMeta.messageSequence

def drainDataEventsFromIngressMarked (bytes : Bytes) (baseMeta : DataEventMeta)
    (clock : Clock) : WsClient × MarkedSink × Except WsError Nat :=
  w.drainDataEventsFromIngressMarkedWithMessageSequence bytes baseMeta clock
    baseMeta.messageSequence

end WsClient

end Talaris.Ws
