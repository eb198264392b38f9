import Talaris.Connection.Recv

/-!
# Handling of completions

A completion of a connection that is not closed goes to the handler of its operation; a
closed connection only takes its resources back.  Runs of plain data completions may be
handled together.
-/

namespace Talaris

open Talaris.Ws

namespace ConnectionState

variable [Rustls] [AcceptDigest]

/-! ## After the connection has closed -/

def discardRecvCompletionAfterClosed (conn : ConnectionState) (c : Completion) :
    ConnectionState :=
  let conn := conn.disarm c
  match c.bufferId, c.toResult with
  | none, .ok _ => conn
  | none, .error e => if isRecvBufferRingExhausted e then conn.recordRecvRingExhaustion else conn
  | some bid, .ok n =>
      { conn with
        bufRing := conn.bufRing.map fun ring => ring.recycleRecvBuffers conn.cfg.recvMode bid n }
  | some bid, .error e =>
      let conn :=
        if isRecvBufferRingExhausted e then
          { conn.recordRecvRingExhaustion with multishotArmed := false }
        else conn
      conn.recycle [bid]

def discardCompletionAfterClosed (conn : ConnectionState) (kind : OpKind) (c : Completion) :
    ConnectionState :=
  match kind with
  | .recv => conn.discardRecvCompletionAfterClosed c
  | .send => { conn with toSendQueue := { conn.toSendQueue.replace [] 0 with sendInflight := false } }
  | .close => { conn with state := .closed }
  | .connect | .nop => conn

/-! ## One completion -/

/-- A handler without sink calls. -/
def silently (outcome : ConnectionState × Except ConnectionError Unit) : Handled :=
  ⟨outcome.1, [], outcome.2.map fun () => 0⟩

/-- The handlers of the five operations. -/
def dispatchCompletion (conn : ConnectionState) (proactor : Proactor) (pump : PumpKind)
    (kind : OpKind) (c : Completion) : Proactor × Handled :=
  match kind with
  | .connect =>
      let (conn, proactor, result) := conn.onConnectCqe proactor c
      (proactor, silently (conn, result))
  | .send => (proactor, silently (conn.onSendCqe c))
  | .recv => (proactor, conn.recvHandler pump c)
  | .close => (proactor, ⟨{ conn with state := .closed }, [], .ok 0⟩)
  | .nop => (proactor, ⟨conn, [], .ok 0⟩)

/-- A completion in the way of a pump. -/
def handleCompletionFor (conn : ConnectionState) (proactor : Proactor) (pump : PumpKind)
    (c : Completion) : Proactor × Handled :=
  match c.userData.kind with
  | none => (proactor, ⟨conn, [], .error (.unknownOpKind c.userData.raw)⟩)
  | some kind =>
      if conn.state = .closed then
        (proactor, ⟨conn.discardCompletionAfterClosed kind c, [], .ok 0⟩)
      else conn.dispatchCompletion proactor pump kind c

section Members

variable (conn : ConnectionState) (proactor : Proactor) (c : Completion)

def handleCompletion : Proactor × Handled := conn.handleCompletionFor proactor .events c

def handleCompletionData : Proactor × Handled := conn.handleCompletionFor proactor .data c

def handleCompletionDataBatch : Proactor × Handled :=
  conn.handleCompletionFor proactor .dataBatches c

def handleCompletionDataMarked : Proactor × Handled :=
  conn.handleCompletionFor proactor .dataMarked c

def handleCompletionDataMarkedBatch : Proactor × Handled :=
  conn.handleCompletionFor proactor .dataMarkedBatches c

end Members

/-- The completion handler of a pump. -/
def completionHandler (conn : ConnectionState) (proactor : Proactor) :
    PumpKind → Completion → Proactor × Handled
  | .events => conn.handleCompletion proactor
  | .data => conn.handleCompletionData proactor
  | .dataBatches => conn.handleCompletionDataBatch proactor
  | .dataMarked => conn.handleCompletionDataMarked proactor
  | .dataMarkedBatches => conn.handleCompletionDataMarkedBatch proactor

@[simp] theorem completionHandler_eq (conn : ConnectionState) (proactor : Proactor)
    (pump : PumpKind) (c : Completion) :
    conn.completionHandler proactor pump c = conn.handleCompletionFor proactor pump c := by
  cases pump <;> rfl

/-! ## Runs of plain data completions -/

def canHandlePlainRecvDataBatch (conn : ConnectionState) (c : Completion) : Bool :=
  conn.tls.isNone && conn.cfg.recvMode = .multishot && conn.state = .isOpen &&
    c.userData.kind = some .recv && 0 < c.result && c.bufferId.isSome

/-- The total length of a run that is short enough to be copied. -/
def plainRecvBatchCopyLen (conn : ConnectionState) (completions : List Completion) :
    Option Nat :=
  let maxBytes := conn.cfg.plainRecvBatchCopyMaxBytes
  if maxBytes = 0 then none
  else
    completions.foldlM (fun total c =>
      if c.result ≤ 0 ∨ c.bufferId.isNone then none
      else if 2 ^ 64 ≤ total + c.result.toNat ∨ maxBytes < total + c.result.toNat then none
      else some (total + c.result.toNat)) 0

/-- One completion of a copied run: its bytes go to the scratch buffer. -/
def copyCompletion (conn : ConnectionState) (c : Completion) : ConnectionState :=
  let n := c.result.toNat
  let conn := (conn.disarm c).recordRecvData n
  { conn with plainRecvBatchScratch := conn.plainRecvBatchScratch ++ c.bytes 0 n }.recycle
    c.bufferId.toList

/-- The run is parsed as one slice. -/
def handlePlainRecvDataBatchCopied (conn : ConnectionState) (pump : PumpKind)
    (completions : List Completion) (totalBytes : Nat) : Handled :=
  let conn := completions.foldl copyCompletion { conn with plainRecvBatchScratch := [] }
  let reading := (Reading.start conn.toReader).take pump .plain {} conn.plainRecvBatchScratch
  let conn := { conn with toReader := reading.toReader }
  (conn.recordReading reading completions.length 0 totalBytes).answer reading

/-- A run in progress: the locals of the loop and its first error. -/
structure BatchRun where
  conn : ConnectionState
  tally : Tally
  firstErr : Option ConnectionError

namespace BatchRun

/-- The first error stays. -/
def fail (run : BatchRun) (e : ConnectionError) : BatchRun :=
  { run with firstErr := run.firstErr <|> some e }

/-- The bytes of a completion go to the client unless the run has failed; the buffer goes
back in any case. -/
def bytes (pump : PumpKind) (run : BatchRun) (c : Completion) (bid n : Nat) : BatchRun :=
  let (recvMeta, conn) := run.conn.observeRecv pump
  let conn := conn.recordRecvData n
  if run.firstErr.isSome then { run with conn := conn.recycle [bid] }
  else
    -- every completion of a run is the first chunk of its receive
    let reading : Reading := { conn.toReader, run.tally with chunkIndex := 0 }
    let reading := reading.take pump .plain recvMeta (c.bytes 0 n)
    ⟨{ conn with toReader := reading.toReader }.recycle [bid], { reading.toTally with wsError := none },
      reading.wsError.map .ws⟩

/-- One completion of a run, with the branches of the source for completions that
`can_handle_plain_recv_data_batch` does not let through. -/
def step (pump : PumpKind) (run : BatchRun) (c : Completion) : BatchRun :=
  let run := { run with conn := run.conn.disarm c }
  match c.bufferId, c.toResult with
  | none, result =>
      if run.firstErr.isSome then run
      else
        match result with
        | .ok 0 => { run with conn := { run.conn with state := .closed } }.fail .peerClosed
        | .ok _ => run.fail (.invalidState run.conn.state)
        | .error e =>
            if isRecvBufferRingExhausted e then
              { run with conn := { run.conn.recordRecvRingExhaustion with multishotArmed := false } }
            else run.fail (.recvFailed e)
  | some bid, .ok 0 =>
      { run with conn := { run.conn.recycle [bid] with state := .closed } }.fail .peerClosed
  | some bid, .error e => { run with conn := run.conn.recycle [bid] }.fail (.recvFailed e)
  | some bid, .ok n => run.bytes pump c bid n

end BatchRun

/-- The run is parsed completion by completion. -/
def handlePlainRecvDataBatchSlices (conn : ConnectionState) (pump : PumpKind)
    (completions : List Completion) : Handled :=
  let run := completions.foldl (BatchRun.step pump) ⟨conn, {}, none⟩
  let tally := run.tally
  let conn :=
    ((run.conn.recordPlaintext tally.plaintextChunks tally.plaintextBytes).recordWsDataDrains
      tally.plaintextChunks 0).recordWsDataEvents tally.textEvents tally.binaryEvents
  ⟨conn, tally.out,
    match run.firstErr with
    | some e => .error e
    | none => .ok tally.drainedEvents⟩

/-- A run in the way of a pump; marked pumps do not copy. -/
def handlePlainRecvDataBatchFor (conn : ConnectionState) (pump : PumpKind)
    (completions : List Completion) : Handled :=
  match if pump.isMarked then none else conn.plainRecvBatchCopyLen completions with
  | some totalBytes =>
      (conn.recordPlainRecvBatch completions.length (some totalBytes)).handlePlainRecvDataBatchCopied
        pump completions totalBytes
  | none =>
      (conn.recordPlainRecvBatch completions.length none).handlePlainRecvDataBatchSlices
        pump completions

section Members

variable (conn : ConnectionState) (completions : List Completion)

def handlePlainRecvDataBatch : Handled := conn.handlePlainRecvDataBatchFor .data completions

def handlePlainRecvDataEventBatches : Handled :=
  conn.handlePlainRecvDataBatchFor .dataBatches completions

def handlePlainRecvDataBatchMarked : Handled :=
  conn.handlePlainRecvDataBatchFor .dataMarked completions

def handlePlainRecvDataEventBatchesMarked : Handled :=
  conn.handlePlainRecvDataBatchFor .dataMarkedBatches completions

end Members

/-- The handler for runs of a data pump; the general pump has none. -/
def batchHandler (conn : ConnectionState) : PumpKind → List Completion → Handled
  | .events => conn.handlePlainRecvDataBatchFor .events
  | .data => conn.handlePlainRecvDataBatch
  | .dataBatches => conn.handlePlainRecvDataEventBatches
  | .dataMarked => conn.handlePlainRecvDataBatchMarked
  | .dataMarkedBatches => conn.handlePlainRecvDataEventBatchesMarked

@[simp] theorem batchHandler_eq (conn : ConnectionState) (pump : PumpKind)
    (completions : List Completion) :
    conn.batchHandler pump completions = conn.handlePlainRecvDataBatchFor pump completions := by
  cases pump <;> rfl

end ConnectionState

end Talaris
