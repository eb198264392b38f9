import Talaris.Connection.State
import Talaris.Ws.Drain

/-!
# Receive handlers

A Recv completion covers one provided buffer, or several in bundle mode.  The five pumps
share its handling: the buffers are cut into slices, a TLS layer turns slices into
plaintext chunks, and each chunk goes to the WebSocket client.  `PumpKind` says what
becomes of a chunk: the general pump only buffers it, the data pumps drain it to the sink.
-/

namespace Talaris

open Talaris.Ws

/-- The pump that handles a completion. -/
inductive PumpKind where
  | events
  | data
  | dataBatches
  | dataMarked
  | dataMarkedBatches
  deriving DecidableEq, Repr

namespace PumpKind

def isData : PumpKind → Bool
  | events => false
  | data | dataBatches | dataMarked | dataMarkedBatches => true

def isMarked : PumpKind → Bool
  | dataMarked | dataMarkedBatches => true
  | events | data | dataBatches => false

/-- One sink call carries a batch. -/
def isBatched : PumpKind → Bool
  | dataBatches | dataMarkedBatches => true
  | events | data | dataMarked => false

end PumpKind

/-- One call of the user's sink. -/
inductive SinkItem where
  | event (event : Event)
  | data (event : DataEvent)
  | batch (batch : DataEventBatch)
  | marked (event : MarkedDataEvent)
  | markedBatch (batch : MarkedDataEventBatch)
  deriving DecidableEq, Repr

namespace SinkItem

/-- The data messages of a sink call. -/
def messages : SinkItem → List DataEvent
  | event e => e.data?.toList
  | data e => [e]
  | batch b => b.events
  | marked m => [m.event]
  | markedBatch b => b.events.map MarkedDataEvent.event

/-- The metadata of a sink call. -/
def stamps : SinkItem → List DataEventMeta
  | marked m => [m.eventMeta]
  | markedBatch b => b.events.map MarkedDataEvent.eventMeta
  | event _ | data _ | batch _ => []

end SinkItem

def isText : DataEvent → Bool
  | .text _ => true
  | .binary _ => false

/-! ## One plaintext chunk -/

/-- What the WebSocket client made of a chunk. -/
structure ChunkDrain where
  ws : WsClient
  out : List SinkItem
  clock : Clock
  messageSequence : Nat
  error : Option WsError

/-- The chunk goes to the client in the way of the pump. -/
def PumpKind.drain [AcceptDigest] (kind : PumpKind) (ws : WsClient) (chunk : Bytes)
    (base : DataEventMeta) (clock : Clock) (sequence : Nat) : ChunkDrain :=
  match kind with
  | .events => ⟨ws.feedRecv chunk, [], clock, sequence, none⟩
  | .data =>
      let (ws, calls, result) := ws.drainDataEventsFromIngress chunk
      ⟨ws, calls.map .data, clock, sequence, errorOf result⟩
  | .dataBatches =>
      let (ws, sink, result) := ws.drainDataEventBatchesFromIngress chunk
      ⟨ws, sink.calls.map .batch, clock, sequence, errorOf result⟩
  | .dataMarked =>
      let (ws, sink, result) :=
        ws.drainDataEventsFromIngressMarkedWithMessageSequence chunk base clock sequence
      ⟨ws, sink.calls.map .marked, sink.marked.clock, sink.marked.messageSequence,
        errorOf result⟩
  | .dataMarkedBatches =>
      let (ws, sink, result) :=
        ws.drainDataEventBatchesFromIngressMarkedWithMessageSequence chunk base clock sequence
      ⟨ws, sink.calls.map .markedBatch, sink.marked.clock, sink.marked.messageSequence,
        errorOf result⟩

/-- Local variables of a receive handler. -/
structure Tally where
  out : List SinkItem := []
  drainedEvents : Nat := 0
  textEvents : Nat := 0
  binaryEvents : Nat := 0
  plaintextChunks : Nat := 0
  plaintextBytes : Nat := 0
  chunkIndex : Nat := 0
  wsError : Option WsError := none

/-- The reader with the locals of the handler that drives it. -/
structure Reading extends Reader, Tally

inductive ChunkSource where
  | tls
  | plain
  deriving DecidableEq, Repr

namespace Reading

def start (reader : Reader) : Reading := { reader with }

/-- When the chunk was ready: now for decrypted bytes, on receipt for plain ones. -/
def baseStamp (reading : Reading) (source : ChunkSource) (recvMeta : DataEventMeta) :
    DataEventMeta × Clock :=
  match source with
  | .tls => recvMeta.plaintextReadyNow reading.clock reading.chunkIndex
  | .plain =>
      (recvMeta.plaintextReadyAt recvMeta.transportRecvMonoNanos reading.chunkIndex,
        reading.clock)

/-- One chunk; after an error of the client the rest is skipped. -/
def take [AcceptDigest] (kind : PumpKind) (source : ChunkSource) (recvMeta : DataEventMeta)
    (reading : Reading) (chunk : Bytes) : Reading :=
  if reading.wsError.isSome then reading
  else
    let (base, clock) := reading.baseStamp source recvMeta
    let drained := kind.drain reading.ws chunk base clock reading.markedMessageSequence
    let messages := drained.out.flatMap SinkItem.messages
    { ws := drained.ws
      clock := drained.clock
      markedRecvSequence := reading.markedRecvSequence
      markedMessageSequence := drained.messageSequence
      observabilityHistograms :=
        if kind.isMarked then
          reading.observabilityHistograms.map fun records =>
            records ++ (drained.out.flatMap SinkItem.stamps).map .message ++
              if messages.isEmpty then [] else [.plaintextChunk base]
        else reading.observabilityHistograms
      out := reading.out ++ drained.out
      drainedEvents := saturatingAdd64 reading.drainedEvents messages.length
      textEvents := saturatingAdd64 reading.textEvents (messages.countP isText)
      binaryEvents := saturatingAdd64 reading.binaryEvents (messages.countP (!isText ·))
      plaintextChunks := saturatingAdd64 reading.plaintextChunks 1
      plaintextBytes := saturatingAdd64 reading.plaintextBytes chunk.length
      chunkIndex := min (reading.chunkIndex + 1) u16Max
      wsError := drained.error }

def takeAll [AcceptDigest] (kind : PumpKind) (source : ChunkSource) (recvMeta : DataEventMeta)
    (reading : Reading) (chunks : List Bytes) : Reading :=
  chunks.foldl (take kind source recvMeta) reading

end Reading

/-! ## Slices of a completion -/

namespace BufferRing

/-- `usize::div_ceil` -/
def divCeil (n d : Nat) : Nat := (n + d - 1) / d

/-- The buffer at an offset from the first one of a completion. -/
def sliceBid (ring : BufferRing) (startBid index : Nat) : Nat :=
  (startBid + min index u16Max) % 2 ^ 16 &&& (ring.entries - 1)

def recycleAll (ring : BufferRing) (bids : List Nat) : BufferRing := bids.foldl recycle ring

/-- `recycle_recv_buffers` -/
def recycleRecvBuffers (ring : BufferRing) (mode : RecvMode) (startBid totalLen : Nat) :
    BufferRing :=
  let count := match mode with
    | .multishot => 1
    | .multishotBundle => max (divCeil totalLen ring.bufSize) 1
  ring.recycleAll ((List.range (min count ring.entries)).map (ring.sliceBid startBid))

/-- The slices of `for_each_recv_slice` with their buffers, for a positive length. -/
def recvSlices (ring : BufferRing) (mode : RecvMode) (c : Completion) (startBid totalLen : Nat) :
    Except IoError (List (Nat × Bytes)) :=
  let cut (count : Nat) : Except IoError (List (Nat × Bytes)) :=
    if ring.entries < count then
      .error (.invalidData "recv bundle consumed more buffers than the ring contains")
    else
      .ok ((List.range count).map fun index =>
        (ring.sliceBid startBid index,
          c.bytes (index * ring.bufSize) (min (totalLen - index * ring.bufSize) ring.bufSize)))
  match mode with
  | .multishot =>
      if ring.bufSize < totalLen then
        .error (.invalidData "classic multishot recv CQE exceeded one provided buffer")
      else cut 1
  | .multishotBundle => cut (divCeil totalLen ring.bufSize)

end BufferRing

def isRecvBufferRingExhausted (e : IoError) : Bool := e = .os enobufs

/-- Outcome of a handler: the connection, the sink calls, and the number of events or the
error. -/
structure Handled [Rustls] where
  conn : ConnectionState
  out : List SinkItem
  result : Except ConnectionError Nat

namespace ConnectionState

variable [Rustls] [AcceptDigest]

/-! ## Receive handlers -/

/-- A receive that posts no more is not armed any longer. -/
def disarm (conn : ConnectionState) (c : Completion) : ConnectionState :=
  { conn with multishotArmed := conn.multishotArmed && c.hasMore }

def recycle (conn : ConnectionState) (bids : List Nat) : ConnectionState :=
  { conn with bufRing := conn.bufRing.map fun ring => ring.recycleAll bids }

/-- Sequence number and metadata of a receive; only marked pumps take them. -/
def observeRecv (conn : ConnectionState) (kind : PumpKind) : DataEventMeta × ConnectionState :=
  if kind.isMarked then
    let sequence := conn.markedRecvSequence
    let sampled := conn.cfg.observabilitySampleRate.shouldSampleSequence sequence
    let (recvMeta, clock) := DataEventMeta.recvObservedNow conn.clock sequence sampled
    (recvMeta, { conn with clock, markedRecvSequence := saturatingAdd64 sequence 1 })
  else ({}, conn)

/-- The counters of a data handler after its chunks. -/
def recordReading (conn : ConnectionState) (reading : Reading) (chunks skips bytes : Nat) :
    ConnectionState :=
  ((conn.recordWsDataDrains chunks skips).recordPlaintext chunks bytes).recordWsDataEvents
    reading.textEvents reading.binaryEvents

/-- What a handler answers after its chunks. -/
def answer (conn : ConnectionState) (reading : Reading) : Handled :=
  ⟨conn, reading.out,
    match reading.wsError with
    | some e => .error (.ws e)
    | none => .ok reading.drainedEvents⟩

/-- Plain bytes go straight to the WebSocket client. -/
def recvPlain (conn : ConnectionState) (kind : PumpKind) (recvMeta : DataEventMeta)
    (slices : List (Nat × Bytes)) (n : Nat) : Handled :=
  let reading := (Reading.start conn.toReader).takeAll kind .plain recvMeta (slices.map Prod.snd)
  let conn := { conn with toReader := reading.toReader }.recycle (slices.map Prod.fst)
  if kind.isData then (conn.recordReading reading slices.length 0 n).answer reading
  else { conn with wsIngress := .dirty }.answer reading

/-- Ciphertext slices go through TLS until it fails. -/
structure TlsReading where
  tls : TlsAdapter
  pendingOut : Bytes
  reading : Reading
  error : Option TlsError

def TlsReading.ingest (kind : PumpKind) (recvMeta : DataEventMeta) (state : TlsReading)
    (slice : Bytes) : TlsReading :=
  if state.error.isSome then state
  else
    let outcome := state.tls.ingestCiphertext slice
    ⟨outcome.tls, state.pendingOut ++ outcome.ciphertext,
      state.reading.takeAll kind .tls recvMeta outcome.plaintext,
      match outcome.result with
      | .ok () => none
      | .error e => some e⟩

/-- The step after the TLS handshake. -/
def afterTlsHandshake (conn : ConnectionState) (tls : TlsAdapter) :
    ConnectionState × Except ConnectionError Unit :=
  if !tls.isHandshaking ∧ conn.state = .tlsHandshake ∧ !conn.wsHandshakeBegun then
    match tls.verifyAlpn with
    | .error e => (conn, .error (.tls e))
    | .ok () => { conn with state := .wsHandshake }.beginWsHandshake
  else (conn, .ok ())

/-- A `close_notify` of the peer puts the driver into `Closing`. -/
def noteCloseNotify (conn : ConnectionState) (tls : TlsAdapter) : ConnectionState :=
  if tls.receivedCloseNotify ∧ conn.state ≠ .closed ∧ conn.state ≠ .closing then
    { conn with state := .closing }
  else conn

def recvTls (conn : ConnectionState) (kind : PumpKind) (recvMeta : DataEventMeta)
    (tls : TlsAdapter) (slices : List (Nat × Bytes)) : Handled :=
  let ingested := (slices.map Prod.snd).foldl (TlsReading.ingest kind recvMeta)
    ⟨tls, conn.tlsPendingOut, Reading.start conn.toReader, none⟩
  let reading := ingested.reading
  let conn :=
    { conn with
      toReader := reading.toReader, tls := some ingested.tls,
      tlsPendingOut := ingested.pendingOut }.recycle (slices.map Prod.fst)
  match ingested.error with
  | some e => ⟨conn, reading.out, .error (.tls e)⟩
  | none =>
      let conn :=
        if !kind.isData ∧ reading.plaintextChunks ≠ 0 then { conn with wsIngress := .dirty }
        else conn
      match conn.afterTlsHandshake ingested.tls with
      | (conn, .error e) => ⟨conn, reading.out, .error e⟩
      | (conn, .ok ()) =>
          let conn := conn.noteCloseNotify ingested.tls
          if kind.isData then
            (conn.recordReading reading reading.plaintextChunks
              (if reading.plaintextChunks = 0 then 1 else 0) reading.plaintextBytes).answer reading
          else conn.answer reading

/-- A receive of `n` bytes from buffer `bid` on.  A missing ring is a panic of the source, so
no run goes on from it. -/
def recvBytes (conn : ConnectionState) (kind : PumpKind) (c : Completion) (bid n : Nat) :
    Handled :=
  let (recvMeta, conn) := conn.observeRecv kind
  let conn := conn.recordRecvData n
  match conn.bufRing with
  | none => ⟨conn, [], .ok 0⟩
  | some ring =>
      match ring.recvSlices conn.cfg.recvMode c bid n with
      | .error e => ⟨conn, [], .error (.recvFailed e)⟩
      | .ok slices =>
          match conn.tls with
          | some tls => conn.recvTls kind recvMeta tls slices
          | none => conn.recvPlain kind recvMeta slices n

/-- A Recv completion in the way of a pump. -/
def onRecvCqeFor (conn : ConnectionState) (kind : PumpKind) (c : Completion) : Handled :=
  let conn := conn.disarm c
  match c.bufferId, c.toResult with
  | none, .ok 0 => ⟨{ conn with state := .closed }, [], .error .peerClosed⟩
  | none, .ok _ => ⟨conn, [], .ok 0⟩
  | none, .error e =>
      if isRecvBufferRingExhausted e then
        ⟨{ conn.recordRecvRingExhaustion with multishotArmed := false }, [], .ok 0⟩
      else ⟨conn, [], .error (.recvFailed e)⟩
  | some _, .error e => ⟨conn, [], .error (.recvFailed e)⟩
  | some bid, .ok 0 =>
      ⟨{ conn.recycle [bid] with state := .closed }, [], .error .peerClosed⟩
  | some bid, .ok n => conn.recvBytes kind c bid n

def onRecvCqe (conn : ConnectionState) : Completion → Handled := conn.onRecvCqeFor .events

def onRecvCqeData (conn : ConnectionState) : Completion → Handled := conn.onRecvCqeFor .data

def onRecvCqeDataBatch (conn : ConnectionState) : Completion → Handled :=
  conn.onRecvCqeFor .dataBatches

def onRecvCqeDataMarked (conn : ConnectionState) : Completion → Handled :=
  conn.onRecvCqeFor .dataMarked

def onRecvCqeDataMarkedBatch (conn : ConnectionState) : Completion → Handled :=
  conn.onRecvCqeFor .dataMarkedBatches

/-- The receive handler of a pump. -/
def recvHandler (conn : ConnectionState) : PumpKind → Completion → Handled
  | .events => conn.onRecvCqe
  | .data => conn.onRecvCqeData
  | .dataBatches => conn.onRecvCqeDataBatch
  | .dataMarked => conn.onRecvCqeDataMarked
  | .dataMarkedBatches => conn.onRecvCqeDataMarkedBatch

@[simp] theorem recvHandler_eq (conn : ConnectionState) (kind : PumpKind) (c : Completion) :
    conn.recvHandler kind c = conn.onRecvCqeFor kind c := by
  cases kind <;> rfl

end ConnectionState

end Talaris
