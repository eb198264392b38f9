import Talaris.Basis.Transition
import Talaris.Ws.Direct

/-!
# Sequences of client calls

`clientMachine` takes the public calls of `WsClient` as its labels.  As long as no
poll or drain has failed, the client stands at a frame boundary of its stream
(`reached_stands`).
-/

namespace Talaris.Ws

open Talaris.Basis

/-! ## The four sinks are lawful -/

theorem dataEventOps_lawful : dataEventOps.Lawful := ⟨fun _ _ _ => rfl, fun _ _ _ => rfl⟩

theorem markedDataEventOps_lawful (baseMeta : DataEventMeta) :
    (markedDataEventOps baseMeta).Lawful := ⟨fun _ _ _ => rfl, fun _ _ _ => rfl⟩

theorem flushDataEventBatch_of_empty {sink : BatchSink DataEvent}
    (empty : sink.batch.events = []) (chunkEnd : Bool) :
    sink.flushDataEventBatch chunkEnd = sink := by
  simp [BatchSink.flushDataEventBatch, empty]

theorem dataEventBatchOps_settled_iff (sink : BatchSink DataEvent) :
    dataEventBatchOps.Settled sink ↔ sink.batch.events = [] := by
  constructor
  · intro settled
    by_contra open_
    have calls := congrArg (fun s => s.calls.length) (settled true)
    simp [dataEventBatchOps, BatchSink.flushDataEventBatch, open_] at calls
  · exact fun empty chunkEnd => flushDataEventBatch_of_empty empty chunkEnd

theorem flushDataEventBatch_batch (chunkEnd : Bool) (sink : BatchSink DataEvent) :
    (sink.flushDataEventBatch chunkEnd).batch.events = [] := by
  unfold BatchSink.flushDataEventBatch
  split
  next empty => simpa using empty
  next => rfl

theorem dataEventBatchOps_lawful : dataEventBatchOps.Lawful where
  flush chunkEnd sink :=
    (dataEventBatchOps_settled_iff _).mpr (flushDataEventBatch_batch chunkEnd sink)
  single {sink} _ settled :=
    (dataEventBatchOps_settled_iff _).mpr ((dataEventBatchOps_settled_iff sink).mp settled)

theorem markedDataEventBatchOps_settled_iff (baseMeta : DataEventMeta) (sink : MarkedBatchSink) :
    (markedDataEventBatchOps baseMeta).Settled sink ↔ sink.batch.events = [] := by
  constructor
  · intro settled
    by_contra open_
    have calls := congrArg (fun s => s.calls.length) (settled true)
    simp [markedDataEventBatchOps, MarkedBatchSink.flushMarkedDataEventBatch, open_] at calls
  · intro empty chunkEnd
    simp [markedDataEventBatchOps, MarkedBatchSink.flushMarkedDataEventBatch, empty]

theorem flushMarkedDataEventBatch_batch (sampled chunkEnd : Bool) (sink : MarkedBatchSink) :
    (sink.flushMarkedDataEventBatch sampled chunkEnd).batch.events = [] := by
  unfold MarkedBatchSink.flushMarkedDataEventBatch
  split
  next empty => simpa using empty
  next => rfl

theorem markedDataEventBatchOps_lawful (baseMeta : DataEventMeta) :
    (markedDataEventBatchOps baseMeta).Lawful where
  flush chunkEnd sink :=
    (markedDataEventBatchOps_settled_iff baseMeta _).mpr
      (flushMarkedDataEventBatch_batch baseMeta.sampled chunkEnd sink)
  single {sink} _ settled :=
    (markedDataEventBatchOps_settled_iff baseMeta _).mpr
      ((markedDataEventBatchOps_settled_iff baseMeta sink).mp settled)

/-! ## Calls -/

/-- The members of the drain family. -/
inductive DrainKind where
  | events
  | batches
  | marked (baseMeta : DataEventMeta) (clock : Clock) (messageSequence : Nat)
  | markedBatches (baseMeta : DataEventMeta) (clock : Clock) (messageSequence : Nat)

/-- The public calls after the handshake request was queued. -/
inductive ClientCall where
  | feedRecv (bytes : Bytes)
  | pollEvent
  | drain (kind : DrainKind)
  | drainFromIngress (kind : DrainKind) (bytes : Bytes)
  | sendText (payload : Bytes)
  | sendBinary (payload : Bytes)
  | sendPing (payload : Bytes)
  | sendPong (payload : Bytes)
  | sendClose (code : Nat) (reason : Bytes)
  | ackTx (n : Nat)

/-- The calls that send a frame of the caller. -/
def ClientCall.IsSend : ClientCall → Prop
  | .sendText _ | .sendBinary _ | .sendPing _ | .sendPong _ | .sendClose _ _ => True
  | .feedRecv _ | .pollEvent | .drain _ | .drainFromIngress _ _ | .ackTx _ => False

namespace WsClient

variable [AcceptDigest]

def drainKind (w : WsClient) : DrainKind → WsClient × Option WsError
  | .events => let (w, _, result) := w.drainDataEvents; (w, errorOf result)
  | .batches => let (w, _, result) := w.drainDataEventBatches; (w, errorOf result)
  | .marked baseMeta clock _ =>
      let (w, _, result) := w.drainDataEventsMarked baseMeta clock
      (w, errorOf result)
  | .markedBatches baseMeta clock _ =>
      let (w, _, result) := w.drainDataEventBatchesMarked baseMeta clock
      (w, errorOf result)

def drainKindFromIngress (w : WsClient) (bytes : Bytes) : DrainKind → WsClient × Option WsError
  | .events => let (w, _, result) := w.drainDataEventsFromIngress bytes; (w, errorOf result)
  | .batches => let (w, _, result) := w.drainDataEventBatchesFromIngress bytes; (w, errorOf result)
  | .marked baseMeta clock sequence =>
      let (w, _, result) :=
        w.drainDataEventsFromIngressMarkedWithMessageSequence bytes baseMeta clock sequence
      (w, errorOf result)
  | .markedBatches baseMeta clock sequence =>
      let (w, _, result) :=
        w.drainDataEventBatchesFromIngressMarkedWithMessageSequence bytes baseMeta clock sequence
      (w, errorOf result)

/-- One call; the output is the error of a poll or drain. -/
def call (w : WsClient) : ClientCall → WsClient × Option WsError
  | .feedRecv bytes => (w.feedRecv bytes, none)
  | .pollEvent =>
      match w.pollEvent with
      | (w, some (.error e)) => (w, some e)
      | (w, _) => (w, none)
  | .drain kind => w.drainKind kind
  | .drainFromIngress kind bytes => w.drainKindFromIngress bytes kind
  | .sendText payload => ((w.sendText payload).1, none)
  | .sendBinary payload => ((w.sendBinary payload).1, none)
  | .sendPing payload => ((w.sendPing payload).1, none)
  | .sendPong payload => ((w.sendPong payload).1, none)
  | .sendClose code reason => ((w.sendClose code reason).1, none)
  | .ackTx n => (w.ackTx n, none)

/-- A client whose handshake request is queued. -/
def Begun (w : WsClient) : Prop :=
  ∃ config rng created, newClient config rng = .ok created ∧ created.beginHandshake = (w, .ok ())

end WsClient

def clientMachine [AcceptDigest] : Machine WsClient ClientCall (Option WsError) where
  initial := WsClient.Begun
  step := WsClient.call

/-- The call reports no error. -/
def errorFree [AcceptDigest] (w : WsClient) (call : ClientCall) : Prop := (w.call call).2 = none

/-! ## Reachable clients stand at a frame boundary -/

section Sending

variable {config : WsConfig} {clientKey : Text} {w : WsClient} {mode : Mode} {c : Core} {r : Bytes}

/-- The input side does not see changes of state and transmit queue, as long as the upgrade
stays behind it. -/
theorem Holds.rewire (holds : Holds config clientKey w mode c r) {state : ConnState} {tx : TxQueue}
    {handshakeStarted : Bool} (connected : c.state ≠ .connecting → state ≠ .connecting) :
    Holds config clientKey { w with state, tx, handshakeStarted } mode
      { c with state, outbound := tx.outbound } r := by
  refine ⟨holds.config, holds.clientKey, holds.cleared, holds.unborrowed, ⟨rfl, rfl⟩, ?_⟩
  have input := holds.input
  unfold HoldsInput at input
  cases parser : w.parser with
  | idle =>
      simp only [parser] at input
      obtain ⟨rfl, bytes, message⟩ := input
      exact .idle rfl bytes message
  | headerPartial filled =>
      simp only [parser] at input
      obtain ⟨rfl, live, bytes, fits, message⟩ := input
      exact .headerPartial rfl (connected live) bytes fits message
  | payload remaining =>
      simp only [parser] at input
      obtain ⟨rfl, live, head, got, h, inFrame⟩ := input
      refine .payload rfl (connected live) (?_ : InFrame _ _ _ _ head got h)
      obtain ⟨parsed, unmasked, bytes, rem, allowed, curOpcode, curFin, payload⟩ := inFrame
      refine ⟨parsed, unmasked, bytes, rem, allowed, curOpcode, curFin, ?_⟩
      cases payload with
      | control isControl ctlBuf message => exact .control isControl ctlBuf message
      | data isData joined msgOpcode msgBuf fits => exact .data isData joined msgOpcode msgBuf fits

theorem Stands.rewire (stands : Stands config clientKey w mode c r) (state : ConnState)
    {tx : TxQueue} {handshakeStarted : Bool}
    (connected : c.state ≠ .connecting → state ≠ .connecting) :
    Stands config clientKey { w with state, tx, handshakeStarted } mode
      { c with state, outbound := tx.outbound } r := by
  have commutes : { w with state, tx, handshakeStarted }.clearAfterEmit =
      { w.clearAfterEmit with state, tx, handshakeStarted } := by
    unfold WsClient.clearAfterEmit
    dsimp only
    repeat' split
    all_goals rfl
  exact ⟨commutes ▸ stands.holds.rewire connected, stands.fits⟩

theorem Stands.state_eq (stands : Stands config clientKey w mode c r) : w.state = c.state := by
  have same := stands.holds.wire.state
  rwa [WsClient.clearAfterEmit_state] at same

/-- Some frame boundary at which the client stands. -/
def WsClient.Ready (w : WsClient) : Prop := ∃ mode c r, Stands w.config w.clientKey w mode c r

theorem WsClient.Ready.write (ready : w.Ready) (fin : Bool) (opcode : OpCode) (payload : Bytes) :
    (w.writeFrame fin opcode payload).Ready := by
  obtain ⟨mode, c, r, stands⟩ := ready
  refine ⟨mode, _, r, stands.rewire w.state fun live => ?_⟩
  rwa [stands.state_eq]

theorem WsClient.Ready.sendFrame (ready : w.Ready) (opcode : OpCode) (payload : Bytes) :
    (w.sendFrame opcode payload).1.Ready := by
  unfold WsClient.sendFrame
  split
  next => exact ready
  next => exact ready.write true opcode payload

theorem WsClient.Ready.sendClose (ready : w.Ready) (code : Nat) (reason : Bytes) :
    (w.sendClose code reason).1.Ready := by
  unfold WsClient.sendClose
  repeat' split
  all_goals first | exact ready | skip
  obtain ⟨mode, c, r, stands⟩ := ready
  exact ⟨mode, _, r, stands.rewire .closing fun _ => by simp⟩

theorem WsClient.Ready.ackTx (ready : w.Ready) (n : Nat) : (w.ackTx n).Ready := by
  obtain ⟨mode, c, r, stands⟩ := ready
  refine ⟨mode, _, r, stands.rewire w.state fun live => ?_⟩
  rwa [stands.state_eq]

theorem Stands.ready (stands : Stands config clientKey w mode c r) : w.Ready := by
  have limits := stands.holds.config
  have key := stands.holds.clientKey
  rw [WsClient.clearAfterEmit_config] at limits
  rw [WsClient.clearAfterEmit_clientKey] at key
  exact ⟨mode, c, r, limits.symm ▸ key.symm ▸ stands⟩

end Sending

section Reachable

variable [AcceptDigest]

theorem WsClient.Begun.ready {w : WsClient} (begun : w.Begun) : w.Ready := by
  obtain ⟨config, rng, created, fresh, started⟩ := begun
  unfold WsClient.newClient at fresh
  repeat' split at fresh
  all_goals cases fresh
  simp only [WsClient.beginHandshake, ne_eq, not_true_eq_false, if_false, Bool.false_eq_true,
    Prod.mk.injEq, and_true] at started
  subst started
  refine ⟨.idle, ⟨.connecting, none, []⟩, [], Holds.stands ⟨rfl, rfl, rfl, rfl, ⟨rfl, ?_⟩, ?_⟩⟩
  · simp [TxQueue.outbound, TxQueue.extend, TxQueue.compactTxIfNeeded_queued]
  · exact .idle rfl rfl ⟨rfl, by simp⟩

omit [AcceptDigest] in
/-- A drain that does not fail leaves its client at a frame boundary. -/
theorem Drained.ready {σ : Type} {ops : SinkOps σ} {config : WsConfig} {clientKey : Text}
    {sink : σ} {events : Nat} {d : Decoded} {out : WsClient × σ × Except WsError Nat}
    (drained : Drained ops config clientKey sink events d out) (clean : errorOf out.2.2 = none) :
    out.1.Ready := by
  have error : d.error = none := by
    rw [drained.result, Decoded.answer] at clean
    split at clean
    next none => exact none
    next => cases clean
  obtain ⟨mode, stands⟩ := drained.reads.stands error
  exact stands.ready

theorem WsClient.Ready.pollEvent {w : WsClient} (ready : w.Ready)
    (clean : errorFree w .pollEvent) : w.pollEvent.1.Ready := by
  obtain ⟨mode, c, r, stands⟩ := ready
  have spec := pollEvent_spec borrowedFault_lawful stands rfl
  generalize polled : w.pollEvent = out at spec
  cases spec with
  | waits decoded silent path holds => exact holds.stands.ready
  | event decoded silent emits path stands => exact stands.ready
  | fails decoded silent path wire => simp [errorFree, WsClient.call, polled] at clean

theorem WsClient.Ready.call {w : WsClient} (ready : w.Ready) {call : ClientCall}
    (clean : errorFree w call) : (w.call call).1.Ready := by
  cases call with
  | feedRecv bytes =>
      obtain ⟨mode, c, r, stands⟩ := ready
      exact (stands.feedRecv bytes).ready
  | pollEvent =>
      have next := ready.pollEvent clean
      unfold WsClient.call
      dsimp only
      split <;> simp_all
  | drain kind =>
      obtain ⟨mode, c, r, stands⟩ := ready
      cases kind with
      | events =>
          exact (drain_spec dataEventOps_lawful stands fun _ => rfl).ready clean
      | batches =>
          exact (drain_spec dataEventBatchOps_lawful stands
            ((dataEventBatchOps_settled_iff _).mpr rfl)).ready clean
      | marked baseMeta clock sequence =>
          exact (drain_spec (markedDataEventOps_lawful baseMeta) stands fun _ => rfl).ready clean
      | markedBatches baseMeta clock sequence =>
          exact (drain_spec (markedDataEventBatchOps_lawful baseMeta) stands
            ((markedDataEventBatchOps_settled_iff baseMeta _).mpr rfl)).ready clean
  | drainFromIngress kind bytes =>
      obtain ⟨mode, c, r, stands⟩ := ready
      cases kind with
      | events =>
          exact (drainFromIngress_spec dataEventOps_lawful stands (fun _ => rfl) bytes).ready clean
      | batches =>
          exact (drainFromIngress_spec dataEventBatchOps_lawful stands
            ((dataEventBatchOps_settled_iff _).mpr rfl) bytes).ready clean
      | marked baseMeta clock sequence =>
          exact (drainFromIngress_spec (markedDataEventOps_lawful baseMeta) stands (fun _ => rfl)
            bytes).ready clean
      | markedBatches baseMeta clock sequence =>
          exact (drainFromIngress_spec (markedDataEventBatchOps_lawful baseMeta) stands
            ((markedDataEventBatchOps_settled_iff baseMeta _).mpr rfl) bytes).ready clean
  | sendText payload =>
      simp only [WsClient.call, WsClient.sendText]
      split
      next => exact ready
      next => exact ready.sendFrame .text payload
  | sendBinary payload => exact ready.sendFrame .binary payload
  | sendPing payload =>
      simp only [WsClient.call, WsClient.sendPing]
      split
      next => exact ready
      next => exact ready.sendFrame .ping payload
  | sendPong payload =>
      simp only [WsClient.call, WsClient.sendPong]
      split
      next => exact ready
      next => exact ready.sendFrame .pong payload
  | sendClose code reason => exact ready.sendClose code reason
  | ackTx n => exact ready.ackTx n

/-- Before the first error every client stands at a frame boundary. -/
theorem reached_stands {w : WsClient} (reached : clientMachine.Reach errorFree w) : w.Ready :=
  reached.invariant (fun w begun => WsClient.Begun.ready (w := w) begun)
    fun _ _ ready clean => ready.call clean

theorem reach_drainDataEventsFromIngress {w : WsClient}
    (reached : clientMachine.Reach errorFree w) (bytes : Bytes)
    (clean : errorOf (w.drainDataEventsFromIngress bytes).2.2 = none) :
    clientMachine.Reach errorFree (w.drainDataEventsFromIngress bytes).1 :=
  let label : ClientCall := .drainFromIngress .events bytes
  have admitted : errorFree w label := clean
  reached.next label admitted

end Reachable

/-! ## A client to run

The key and the answer are the ones RFC 6455 uses as its example. -/

namespace Sample

def key : Text := "dGhlIHNhbXBsZSBub25jZQ==".toList

def accept : Text := "s3pPLMBiTxaQ9kYGzzhZRbK+xOo=".toList

/-- SHA-1 of the key with the GUID. -/
def hash : Bytes :=
  [0xB3, 0x7A, 0x4F, 0x2C, 0xC0, 0x62, 0x4F, 0x16, 0x90, 0xF6, 0x46, 0x06, 0xCF, 0x38, 0x59, 0x45,
    0xB2, 0xBE, 0xC4, 0xEA]

def nonce : Bytes := Text.utf8 "the sample nonce".toList

@[reducible] def digest : AcceptDigest where
  sha1 bytes := if bytes = Text.utf8 key ++ Text.utf8 wsGuid then hash else []
  base64 bytes := if bytes = hash then accept else if bytes = nonce then key else []

def random : SystemRandom := ⟨fun _ => some fun i => nonce.getD i 0, 0⟩

def config : WsConfig := { host := "localhost".toList, path := "/".toList }

def response : Bytes :=
  Text.utf8 ("HTTP/1.1 101 Switching Protocols\r\nUpgrade: websocket\r\nConnection: Upgrade\r\n" ++
    "Sec-WebSocket-Accept: s3pPLMBiTxaQ9kYGzzhZRbK+xOo=\r\n\r\n").toList

attribute [local instance] digest

/-- What `newClient` builds from `config` and `random`. -/
def created : WsClient where
  state := .connecting
  parser := .idle
  recvBuf := []
  msgBuf := []
  borrowedPayload := none
  msgOpcode := none
  ctlBuf := []
  curOpcode := none
  curFin := false
  tx :=
    ⟨[], 0, config.maxMessageSize + maxHeaderLen,
      (List.range maskPoolBytes).map fun i => nonce.getD i 0, 0, { random with calls := 2 }, []⟩
  config := config
  clientKey := encodeKey ((List.range 16).map fun i => nonce.getD i 0)
  handshakeStarted := false
  lastEmitted := none

def client : WsClient := created.beginHandshake.1

theorem created_eq : WsClient.newClient config random = .ok created := by
  have fits : ¬ 2 ^ 64 ≤ config.maxMessageSize + maxHeaderLen := by decide
  simp only [WsClient.newClient, SystemRandom.fill, random, Option.map_some, if_neg fits]
  rfl

theorem client_begun : client.Begun := ⟨config, random, created, created_eq, rfl⟩

theorem client_reached : clientMachine.Reach errorFree client := .start client_begun

/-- The client after the upgrade. -/
def opened : WsClient := (client.drainDataEventsFromIngress response).1

theorem opened_reached : clientMachine.Reach errorFree opened :=
  reach_drainDataEventsFromIngress client_reached response (by decide +kernel)

end Sample

end Talaris.Ws
