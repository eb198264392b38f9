import Talaris.Connection.Connect
import Talaris.Ws.Resume

/-!
# What a plain connection reads

The bytes that the receive completions of a plain connection bring are one stream, and the
messages that its handlers hand out are the data messages at the front of that stream,
whichever pumps handled the completions and whether they came alone, in bundles or in runs.
-/

namespace Talaris

open Talaris.Ws

/-! ## One chunk -/

/-- The plain sink and the one that marks. -/
def MarksSame (messages : List DataEvent) (sink : MarkedSink) : Prop :=
  sink.calls.map MarkedDataEvent.event = messages

/-- The plain sink and the one that marks and batches. -/
def MarkedPacks (messages : List DataEvent) (sink : MarkedBatchSink) : Prop :=
  ∃ events, Packs events sink.calls sink.batch ∧ events.map MarkedDataEvent.event = messages

theorem markedDataEventOps_same (baseMeta : DataEventMeta) :
    dataEventOps.Sim (markedDataEventOps baseMeta) MarksSame MarksSame where
  filling related := related
  push event related := by
    show List.map _ (_ ++ [_]) = _ ++ [event]
    rw [List.map_append, related, List.map_singleton]
  flush _ related := related
  single event related := by
    show List.map _ (_ ++ [_]) = _ ++ [event]
    rw [List.map_append, related, List.map_singleton]

theorem MarkedPacks.flush {messages : List DataEvent} {sink : MarkedBatchSink}
    (related : MarkedPacks messages sink) (sampled chunkEnd : Bool) :
    MarkedPacks messages (sink.flushMarkedDataEventBatch sampled chunkEnd) := by
  obtain ⟨events, packs, same⟩ := related
  unfold MarkedBatchSink.flushMarkedDataEventBatch
  split
  next => exact ⟨events, packs, same⟩
  next filled => exact ⟨events, packs.flushed (by simpa using filled) chunkEnd, same⟩

theorem markedDataEventBatchOps_same (baseMeta : DataEventMeta) :
    dataEventOps.Sim (markedDataEventBatchOps baseMeta) MarkedPacks
      fun messages sink => MarkedPacks messages sink ∧ sink.batch.events = [] where
  filling related := related.1
  push {messages sink} event related := by
    show MarkedPacks (messages ++ [event]) _
    dsimp only [markedDataEventBatchOps]
    split
    next full =>
      obtain ⟨events, packs, same⟩ := related.flush baseMeta.sampled false
      refine ⟨_, packs.pushed ?_ _, by rw [List.map_append, same, List.map_singleton]⟩
      rw [EventBatch.isFull_iff, flushMarkedDataEventBatch_batch]
      decide
    next room =>
      obtain ⟨events, packs, same⟩ := related
      exact ⟨_, packs.pushed room _, by rw [List.map_append, same, List.map_singleton]⟩
  flush {messages sink} chunkEnd related :=
    ⟨related.flush baseMeta.sampled chunkEnd,
      flushMarkedDataEventBatch_batch baseMeta.sampled chunkEnd sink⟩
  single {messages sink} event related := by
    obtain ⟨⟨events, packs, same⟩, idle⟩ := related
    refine ⟨⟨_, packs.single idle _, ?_⟩, idle⟩
    rw [List.map_append, same, List.map_singleton]
    rfl

section Chunks

variable [AcceptDigest]

/-- Every data pump takes a chunk as the plain drain does. -/
theorem PumpKind.drain_data {pump : PumpKind} (data : pump.isData = true) (w : WsClient)
    (chunk : Bytes) (base : DataEventMeta) (clock : Clock) (sequence : Nat) :
    let plain := w.drainDataEventsFromIngress chunk
    let drained := pump.drain w chunk base clock sequence
    drained.ws = plain.1 ∧ drained.out.flatMap SinkItem.messages = plain.2.1 ∧
      drained.error = errorOf plain.2.2 := by
  have flat {ε : Type} {events : List ε} {sink : BatchSink ε}
      (packs : Packs events sink.calls sink.batch) (idle : sink.batch.events = []) :
      sink.calls.flatMap EventBatch.events = events := by
    rw [← packs.flat, idle, List.append_nil]
  cases pump with
  | events => cases data
  | data =>
      refine ⟨rfl, ?_, rfl⟩
      simp only [drain, List.flatMap_map, SinkItem.messages, List.flatMap_singleton']
  | dataBatches =>
      have none : Batched [] ({} : BatchSink DataEvent) := ⟨rfl, by simp, Nat.zero_le _⟩
      obtain ⟨client, ⟨packs, idle⟩, result⟩ :=
        WsClient.drainFromIngress_sim dataEventBatchOps_sim w chunk ⟨none, rfl⟩
      refine ⟨client, ?_, congrArg errorOf result⟩
      simp only [drain, List.flatMap_map, SinkItem.messages]
      exact flat packs idle
  | dataMarked =>
      have none : MarksSame [] ⟨[], WsClient.markedStart clock sequence⟩ := rfl
      obtain ⟨client, same, result⟩ :=
        WsClient.drainFromIngress_sim (markedDataEventOps_same base) w chunk none
      refine ⟨client, ?_, congrArg errorOf result⟩
      simp only [drain, List.flatMap_map, SinkItem.messages]
      rw [← List.map_eq_flatMap]
      exact same
  | dataMarkedBatches =>
      have none : MarkedPacks [] ⟨[], EventBatch.empty, WsClient.markedStart clock sequence⟩ :=
        ⟨[], ⟨rfl, by simp, Nat.zero_le _⟩, rfl⟩
      obtain ⟨client, ⟨⟨events, packs, same⟩, idle⟩, result⟩ :=
        WsClient.drainFromIngress_sim (markedDataEventBatchOps_same base) w chunk ⟨none, rfl⟩
      refine ⟨client, ?_, congrArg errorOf result⟩
      simp only [drain, List.flatMap_map, SinkItem.messages]
      refine Eq.trans ?_ same
      rw [← packs.flat, idle, List.append_nil, List.map_flatMap]
      rfl

variable {config : WsConfig} {clientKey : Text} {bytes : Bytes} {read : List Event}
  {messages : List DataEvent} {settled : Bool} {late : Prop}

/-- A chunk in the way of a pump. -/
theorem PumpKind.drain_left {w : WsClient} {mode : Mode} {c : Core} {r : Bytes}
    (reading : HasRead config clientKey bytes read w mode c r) (closing : w.state = .closing → late)
    (pump : PumpKind) (chunk : Bytes) (base : DataEventMeta) (clock : Clock) (sequence : Nat) :
    let drained := pump.drain w chunk base clock sequence
    ∃ events, drained.out.flatMap SinkItem.messages = events.filterMap Event.data? ∧
      Left config clientKey (bytes ++ chunk) (read ++ events) pump.isData late drained.ws
        drained.error := by
  cases data : pump.isData with
  | false =>
      have general : pump = .events := by cases pump <;> first | rfl | cases data
      subst general
      have fed := reading.feedRecv chunk
      rw [← List.append_nil read] at fed
      exact ⟨[], rfl, .waits fed (by simp) closing⟩
  | true =>
      obtain ⟨client, out, error⟩ := pump.drain_data data w chunk base clock sequence
      have drained : Drained _ _ _ _ _ _ (w.drainDataEventsFromIngress chunk) :=
        drainFromIngress_spec dataEventOps_lawful reading.stands (fun _ => rfl) chunk
      refine ⟨(decode config clientKey fastFault mode c (r ++ chunk)).events, ?_, ?_⟩
      · rw [out, drained.sink, dataEventOps_delivered]
        rfl
      · have left := (reading.feedRecv chunk).decoded fastFault_lawful closing drained.reads
        rw [client, error, drained.result]
        have ends : errorOf ((decode config clientKey fastFault mode c (r ++ chunk)).answer 0) =
            (decode config clientKey fastFault mode c (r ++ chunk)).error := by
          unfold Decoded.answer
          cases (decode config clientKey fastFault mode c (r ++ chunk)).error <;> rfl
        rw [ends]
        exact left

/-- A receive handler between two chunks: what it has handed out follows the messages. -/
def Reading.Follows (config : WsConfig) (clientKey : Text) (bytes : Bytes)
    (messages : List DataEvent) (settled : Bool) (late : Prop) (reading : Reading) : Prop :=
  ∃ read, read.filterMap Event.data? = messages ++ reading.out.flatMap SinkItem.messages ∧
    Left config clientKey bytes read settled late reading.ws reading.wsError

theorem Reading.take_follows {reading : Reading}
    (follows : reading.Follows config clientKey bytes messages settled late) (pump : PumpKind)
    (source : ChunkSource) (recvMeta : DataEventMeta) (chunk : Bytes) :
    (reading.take pump source recvMeta chunk).Follows config clientKey (bytes ++ chunk) messages
      (pump.isData && settled) late := by
  obtain ⟨read, given, left⟩ := follows
  unfold Reading.take
  split
  next failed =>
    refine ⟨read, given, ?_⟩
    generalize reading.wsError = error at left failed ⊢
    cases left with
    | waits => cases failed
    | ended e ended => exact .ended e (ended.feed chunk)
  next going =>
    generalize stopped : reading.wsError = error at left going
    cases left with
    | ended => simp at going
    | waits reads nothing closing =>
        obtain ⟨events, handed, left⟩ := pump.drain_left reads closing chunk
          (reading.baseStamp source recvMeta).1 (reading.baseStamp source recvMeta).2
          reading.markedMessageSequence
        refine ⟨read ++ events, ?_, ?_⟩
        · simp only [List.filterMap_append, given, List.flatMap_append, handed, List.append_assoc]
        · exact left.weaken fun both => (Bool.and_eq_true_iff.mp both).1

theorem Reading.takeAll_follows (pump : PumpKind) (source : ChunkSource)
    (recvMeta : DataEventMeta) (chunks : List Bytes) {bytes : Bytes} {reading : Reading}
    (follows : reading.Follows config clientKey bytes messages settled late) :
    (reading.takeAll pump source recvMeta chunks).Follows config clientKey
      (bytes ++ chunks.flatten) messages (pump.isData && settled) late := by
  induction chunks generalizing bytes reading settled with
  | nil =>
      obtain ⟨read, given, left⟩ := follows
      rw [List.flatten_nil, List.append_nil]
      exact ⟨read, given, left.weaken fun both => (Bool.and_eq_true_iff.mp both).2⟩
  | cons chunk chunks ih =>
      have taken := ih (reading.take_follows follows pump source recvMeta chunk)
      rw [Bool.and_self_left, List.append_assoc] at taken
      exact taken

end Chunks

/-! ## The bytes of a completion -/

theorem Completion.bytes_add (c : Completion) (start one two : Nat) :
    c.bytes start (one + two) = c.bytes start one ++ c.bytes (start + one) two := by
  unfold Completion.bytes
  rw [List.range_add, List.map_append, List.map_map]
  congr 1
  apply List.map_congr_left
  intro i _
  rw [Function.comp_apply, Nat.add_assoc]

/-- Consecutive buffers hold consecutive bytes. -/
theorem Completion.bytes_cut (c : Completion) (n size count : Nat) :
    ((List.range count).map fun index =>
        c.bytes (index * size) (min (n - index * size) size)).flatten =
      c.bytes 0 (min n (count * size)) := by
  induction count with
  | zero =>
      rw [Nat.zero_mul, Nat.min_zero]
      rfl
  | succ count ih =>
      rw [List.range_succ, List.map_append, List.flatten_append, ih, List.map_singleton,
        List.flatten_singleton]
      rcases Nat.le_total n (count * size) with within | beyond
      · have longer : n ≤ (count + 1) * size := by
          rw [Nat.succ_mul]
          omega
        rw [Nat.sub_eq_zero_of_le within, Nat.zero_min, Nat.min_eq_left within,
          Nat.min_eq_left longer]
        exact List.append_nil _
      · have split : min n ((count + 1) * size) =
            count * size + min (n - count * size) size := by
          rw [Nat.succ_mul]
          omega
        rw [split, Nat.min_eq_right beyond, c.bytes_add, Nat.zero_add]

/-- The slices of a completion hold its bytes, in order. -/
theorem BufferRing.recvSlices_flatten {ring : BufferRing} (sized : ring.bufSize ≠ 0)
    {mode : RecvMode} {c : Completion} {startBid n : Nat} {slices : List (Nat × Bytes)}
    (cut : ring.recvSlices mode c startBid n = .ok slices) :
    (slices.map Prod.snd).flatten = c.bytes 0 n := by
  have covers (count : Nat) (enough : n ≤ count * ring.bufSize) :
      (((List.range count).map fun index =>
        (ring.sliceBid startBid index,
          c.bytes (index * ring.bufSize) (min (n - index * ring.bufSize) ring.bufSize))).map
            Prod.snd).flatten = c.bytes 0 n := by
    rw [List.map_map]
    refine (c.bytes_cut n ring.bufSize count).trans ?_
    rw [Nat.min_eq_left enough]
  unfold BufferRing.recvSlices at cut
  cases mode with
  | multishot =>
      dsimp only at cut
      split at cut
      next => cases cut
      next fits =>
        split at cut
        next => cases cut
        next =>
          cases cut
          exact covers 1 (by omega)
  | multishotBundle =>
      dsimp only at cut
      split at cut
      next => cases cut
      next =>
        cases cut
        apply covers
        have positive := Nat.pos_of_ne_zero sized
        have below := Nat.lt_div_mul_add (a := n + ring.bufSize - 1) positive
        unfold divCeil
        omega

/-! ## Connections -/

namespace ConnectionState

variable [Rustls] [AcceptDigest]

/-- A plain connection whose client has read the stream `bytes` as far as these messages. -/
structure Live (config : WsConfig) (clientKey : Text) (bytes : Bytes) (messages : List DataEvent)
    (late : Prop) (conn : ConnectionState) : Prop where
  reads : ∃ read, read.filterMap Event.data? = messages ∧
    Left config clientKey bytes read (conn.wsIngress = .clean) late conn.ws none
  plain : conn.tls = none
  slots : ∀ ring, conn.bufRing = some ring → ring.bufSize ≠ 0

/-- Behind the handshake the client is not connecting any longer. -/
def PastUpgrade (conn : ConnectionState) : Prop :=
  conn.state ≠ .closed → State.isOpen.rank ≤ conn.state.rank → conn.ws.state ≠ .connecting

/-- What a plain connection has handed out of its stream, and how it goes on. -/
structure Streams (config : WsConfig) (clientKey : Text) (bytes : Bytes)
    (messages : List DataEvent) (late : Prop) (conn : ConnectionState) : Prop where
  ordered : messages <+: (wireEvents config clientKey .fresh bytes).filterMap Event.data?
  live : conn.state ≠ .closed → conn.Live config clientKey bytes messages late
  follows : conn.state ≠ .closed → conn.ws.state = .isOpen → State.isOpen.rank ≤ conn.state.rank
  past : conn.PastUpgrade

variable {config : WsConfig} {clientKey : Text} {bytes : Bytes} {messages : List DataEvent}
  {late : Prop} {conn conn' : ConnectionState}

theorem Live.slots_of (live : conn.Live config clientKey bytes messages late)
    (ring : conn'.bufRing.map BufferRing.bufSize = conn.bufRing.map BufferRing.bufSize) :
    ∀ ring, conn'.bufRing = some ring → ring.bufSize ≠ 0 := by
  intro ring' present
  rw [present, Option.map_some] at ring
  obtain ⟨before, held, same⟩ := Option.map_eq_some_iff.mp ring.symm
  rw [← same]
  exact live.slots before held

/-- The same client, ring and hint. -/
theorem Live.of_same (live : conn.Live config clientKey bytes messages late)
    (ws : conn'.ws = conn.ws) (tls : conn'.tls = conn.tls)
    (ring : conn'.bufRing.map BufferRing.bufSize = conn.bufRing.map BufferRing.bufSize)
    (ingress : conn'.wsIngress = conn.wsIngress) :
    conn'.Live config clientKey bytes messages late := by
  refine ⟨?_, tls.trans live.plain, live.slots_of ring⟩
  rw [ws, ingress]
  exact live.reads

theorem Live.ordered (live : conn.Live config clientKey bytes messages late) :
    messages <+: (wireEvents config clientKey .fresh bytes).filterMap Event.data? := by
  obtain ⟨read, rfl, left⟩ := live.reads
  exact left.given.filterMap Event.data?

theorem Live.streams (live : conn.Live config clientKey bytes messages late)
    (follows : conn.state ≠ .closed → conn.ws.state = .isOpen →
      State.isOpen.rank ≤ conn.state.rank) (past : conn.PastUpgrade) :
    conn.Streams config clientKey bytes messages late :=
  ⟨live.ordered, fun _ => live, follows, past⟩

theorem Live.mono {late' : Prop} (live : conn.Live config clientKey bytes messages late)
    (allowed : late → late') : conn.Live config clientKey bytes messages late' := by
  obtain ⟨⟨read, given, left⟩, plain, slots⟩ := live
  refine ⟨⟨read, given, ?_⟩, plain, slots⟩
  cases left with
  | waits reading nothing closing => exact .waits reading nothing fun state => allowed (closing state)

theorem Streams.mono {late' : Prop} (streams : conn.Streams config clientKey bytes messages late)
    (allowed : late → late') : conn.Streams config clientKey bytes messages late' :=
  ⟨streams.ordered, fun active => (streams.live active).mono allowed, streams.follows, streams.past⟩

/-- Closed connections only keep what they have handed out. -/
theorem streams_closed
    (ordered : messages <+: (wireEvents config clientKey .fresh bytes).filterMap Event.data?)
    (closed : conn.state = .closed) : conn.Streams config clientKey bytes messages late :=
  ⟨ordered, fun active => absurd closed active, fun active => absurd closed active,
    fun active => absurd closed active⟩

/-- Both syncs after a step that leaves the client reading. -/
theorem Live.streams_synced (live : conn.Live config clientKey bytes messages late)
    (past : conn.PastUpgrade) :
    { conn with state := conn.syncedState }.Streams config clientKey bytes messages late := by
  refine Live.streams (live.of_same rfl rfl rfl rfl) (fun _ isOpen => ?_) fun _ rank early => ?_
  · have synced : conn.syncedState = .isOpen := if_pos isOpen
    exact Nat.le_of_eq (congrArg State.rank synced.symm)
  · have early' : conn.ws.state = .connecting := early
    have same : conn.syncedState = conn.state := by simp [syncedState, early']
    have rank' : State.isOpen.rank ≤ conn.syncedState.rank := rank
    rw [same] at rank'
    by_cases closed : conn.state = .closed
    · rename_i active
      exact active (same.trans closed)
    · exact past closed rank' early'

/-- What a handler makes of the stream: without an error the client goes on. -/
structure Carries (config : WsConfig) (clientKey : Text) (bytes : Bytes)
    (messages : List DataEvent) (late : Prop) (handled : Handled) : Prop where
  ordered : messages ++ handled.out.flatMap SinkItem.messages <+:
    (wireEvents config clientKey .fresh bytes).filterMap Event.data?
  live : ∀ n, handled.result = .ok n → handled.conn.Live config clientKey bytes
    (messages ++ handled.out.flatMap SinkItem.messages) late
  past : handled.conn.PastUpgrade

/-- The answer of a handler whose reading follows the stream. -/
theorem answer_carries {reading : Reading} {settled : Bool}
    (follows : reading.Follows config clientKey bytes messages settled late)
    (client : conn.ws = reading.ws) (plain : conn.tls = none)
    (slots : ∀ ring, conn.bufRing = some ring → ring.bufSize ≠ 0)
    (hint : conn.wsIngress = .clean → settled = true) (past : conn.PastUpgrade) :
    Carries config clientKey bytes messages late (conn.answer reading) := by
  obtain ⟨read, given, left⟩ := follows
  refine ⟨?_, fun n answered => ⟨⟨read, given, ?_⟩, plain, slots⟩, past⟩
  · show messages ++ reading.out.flatMap SinkItem.messages <+: _
    rw [← given]
    exact left.given.filterMap Event.data?
  · have clean : reading.wsError = none := by
      cases error : reading.wsError with
      | none => rfl
      | some e => simp [answer, error] at answered
    rw [clean] at left
    show Left config clientKey bytes read (decide (conn.wsIngress = .clean)) late conn.ws none
    rw [client]
    exact left.weaken fun tidy => hint (of_decide_eq_true tidy)

omit [AcceptDigest] in
theorem recycle_bufSize (conn : ConnectionState) (bids : List Nat) :
    (conn.recycle bids).bufRing.map BufferRing.bufSize = conn.bufRing.map BufferRing.bufSize := by
  have same (ring : BufferRing) : (ring.recycleAll bids).bufSize = ring.bufSize := by
    unfold BufferRing.recycleAll
    induction bids generalizing ring with
    | nil => rfl
    | cons bid bids ih =>
        rw [List.foldl_cons, ih]
        unfold BufferRing.recycle
        split <;> rfl
  unfold recycle
  cases conn.bufRing <;> simp [same]

/-- A client that is still connecting was connecting before. -/
theorem PastUpgrade.uses (past : conn.PastUpgrade) (state : conn'.state = conn.state)
    (uses : conn.ws.Uses conn'.ws) : conn'.PastUpgrade := by
  intro active rank early
  rw [state] at active rank
  apply past active rank
  have before := uses.before
  unfold WsClient.Before at before
  rw [early] at before
  cases state : conn.ws.state <;> simp_all [ConnState.rank]

theorem Live.start (live : conn.Live config clientKey bytes messages late) :
    (Reading.start conn.toReader).Follows config clientKey bytes messages
      (conn.wsIngress = .clean) late := by
  obtain ⟨read, given, left⟩ := live.reads
  exact ⟨read, given.trans (List.append_nil _).symm, left⟩

theorem recvPlain_carries (live : conn.Live config clientKey bytes messages late)
    (past : conn.PastUpgrade) (pump : PumpKind) (recvMeta : DataEventMeta)
    (slices : List (Nat × Bytes)) (n : Nat) :
    Carries config clientKey (bytes ++ (slices.map Prod.snd).flatten) messages late
      (conn.recvPlain pump recvMeta slices n) := by
  have follows := Reading.takeAll_follows pump .plain recvMeta (slices.map Prod.snd) live.start
  have uses := Reading.takeAll_uses pump .plain recvMeta (Reading.start conn.toReader)
    (slices.map Prod.snd)
  unfold recvPlain
  dsimp only
  generalize (Reading.start conn.toReader).takeAll pump .plain recvMeta (slices.map Prod.snd) =
    reading at follows uses ⊢
  have slots := live.slots_of ({ conn with toReader := reading.toReader }.recycle_bufSize
    (slices.map Prod.fst))
  split
  next data =>
    rw [data, Bool.true_and] at follows
    exact answer_carries follows rfl live.plain slots (fun clean => decide_eq_true clean)
      (past.uses rfl uses)
  next general =>
    exact answer_carries follows rfl live.plain slots (fun clean => by cases clean)
      (past.uses rfl uses)

/-- A handler that leaves the client, the ring and the hint alone. -/
theorem carries_same (live : conn.Live config clientKey bytes messages late)
    (past : conn.PastUpgrade) (ws : conn'.ws = conn.ws) (tls : conn'.tls = conn.tls)
    (ring : conn'.bufRing.map BufferRing.bufSize = conn.bufRing.map BufferRing.bufSize)
    (ingress : conn'.wsIngress = conn.wsIngress) (state : conn'.state = conn.state) (n : Nat) :
    Carries config clientKey bytes messages late ⟨conn', [], .ok n⟩ := by
  refine ⟨?_, fun _ _ => ?_, past.uses state ?_⟩
  · rw [List.flatMap_nil, List.append_nil]
    exact live.ordered
  · rw [List.flatMap_nil, List.append_nil]
    exact live.of_same ws tls ring ingress
  · rw [ws]
    exact .refl _

/-- A handler that fails before it has handed anything out. -/
theorem carries_failed {conn' : ConnectionState}
    (live : conn.Live config clientKey bytes messages late) (past : conn'.PastUpgrade) (chunk : Bytes)
    (e : ConnectionError) :
    Carries config clientKey (bytes ++ chunk) messages late ⟨conn', [], .error e⟩ := by
  refine ⟨?_, fun n answered => (by cases answered), past⟩
  rw [List.flatMap_nil, List.append_nil]
  exact live.ordered.trans ((wireEvents_first .fresh bytes chunk).filterMap Event.data?)

theorem recvBytes_carries (live : conn.Live config clientKey bytes messages late)
    (past : conn.PastUpgrade) (present : conn.bufRing ≠ none) (pump : PumpKind) (c : Completion)
    (bid n : Nat) :
    Carries config clientKey (bytes ++ c.bytes 0 n) messages late (conn.recvBytes pump c bid n) := by
  have observed : (conn.observeRecv pump).2.ws = conn.ws ∧
      (conn.observeRecv pump).2.tls = conn.tls ∧
      (conn.observeRecv pump).2.bufRing = conn.bufRing ∧
      (conn.observeRecv pump).2.wsIngress = conn.wsIngress ∧
      (conn.observeRecv pump).2.state = conn.state := by
    unfold observeRecv
    split <;> exact ⟨rfl, rfl, rfl, rfl, rfl⟩
  obtain ⟨ws, tls, ring, ingress, state⟩ := observed
  unfold recvBytes
  dsimp only
  generalize (conn.observeRecv pump).1 = recvMeta
  generalize counted : (conn.observeRecv pump).2.recordRecvData n = conn₁
  have live₁ : conn₁.Live config clientKey bytes messages late := by
    rw [← counted]
    exact live.of_same ws tls (congrArg _ ring) ingress
  have past₁ : conn₁.PastUpgrade := by
    refine past.uses (by rw [← counted]; exact state) ?_
    rw [← counted]
    show conn.ws.Uses (conn.observeRecv pump).2.ws
    rw [ws]
    exact .refl _
  split
  next missing =>
    rw [← counted] at missing
    exact absurd (ring.symm.trans missing) present
  next ring₁ held =>
    split
    next e => exact carries_failed live₁ past₁ _ _
    next slices cut =>
      rw [live₁.plain]
      have carries := recvPlain_carries live₁ past₁ pump recvMeta slices n
      rw [BufferRing.recvSlices_flatten (live₁.slots ring₁ held) cut] at carries
      exact carries

end ConnectionState

/-- The bytes that a Recv completion brings. -/
def Completion.brought (c : Completion) : Bytes :=
  match c.bufferId, c.toResult with
  | some _, .ok n => c.bytes 0 n
  | _, _ => []

namespace ConnectionState

variable [Rustls] [AcceptDigest] {config : WsConfig} {clientKey : Text} {bytes : Bytes}
  {messages : List DataEvent} {late : Prop} {conn conn' : ConnectionState}

omit [AcceptDigest] in
theorem pastUpgrade_closed (closed : conn.state = .closed) : conn.PastUpgrade :=
  fun active => absurd closed active

theorem PastUpgrade.same (past : conn.PastUpgrade) (state : conn'.state = conn.state)
    (ws : conn'.ws = conn.ws) : conn'.PastUpgrade := by
  refine past.uses state ?_
  rw [ws]
  exact .refl _

/-- A Recv completion in the way of a pump. -/
theorem onRecvCqeFor_carries (live : conn.Live config clientKey bytes messages late)
    (past : conn.PastUpgrade) (pump : PumpKind) (c : Completion)
    (ringed : c.brought ≠ [] → conn.bufRing ≠ none) :
    Carries config clientKey (bytes ++ c.brought) messages late (conn.onRecvCqeFor pump c) := by
  have disarmed : (conn.disarm c).Live config clientKey bytes messages late :=
    live.of_same rfl rfl rfl rfl
  have past₁ : (conn.disarm c).PastUpgrade := past.same rfl rfl
  have nothing (handled : Handled)
      (carries : Carries config clientKey (bytes ++ []) messages late handled)
      (none : c.brought = []) :
      Carries config clientKey (bytes ++ c.brought) messages late handled := by
    rwa [none]
  have same {conn' : ConnectionState} (ws : conn'.ws = (conn.disarm c).ws)
      (tls : conn'.tls = (conn.disarm c).tls)
      (ring : conn'.bufRing = (conn.disarm c).bufRing)
      (ingress : conn'.wsIngress = (conn.disarm c).wsIngress)
      (state : conn'.state = (conn.disarm c).state) :
      Carries config clientKey (bytes ++ []) messages late ⟨conn', [], .ok 0⟩ := by
    rw [List.append_nil]
    exact carries_same disarmed past₁ ws tls (congrArg _ ring) ingress state 0
  unfold onRecvCqeFor
  dsimp only
  split
  next unnamed _ =>
    exact nothing _ (carries_failed live (pastUpgrade_closed rfl) [] _)
      (by simp [Completion.brought, unnamed])
  next unnamed _ =>
    exact nothing _ (same rfl rfl rfl rfl rfl) (by simp [Completion.brought, unnamed])
  next unnamed failed =>
    refine nothing _ ?_ (by simp [Completion.brought, unnamed])
    split
    next => exact same rfl rfl rfl rfl rfl
    next => exact carries_failed live past₁ [] _
  next named failed =>
    exact nothing _ (carries_failed live past₁ [] _) (by simp [Completion.brought, named, failed])
  next named zero =>
    exact nothing _ (carries_failed live (pastUpgrade_closed rfl) [] _)
      (by simp [Completion.brought, named, zero, Completion.bytes])
  next bid n positive named answered =>
    have brought : c.brought = c.bytes 0 n := by simp [Completion.brought, named, answered]
    rw [brought]
    refine recvBytes_carries disarmed past₁ (ringed ?_) pump c bid n
    intro none
    have length : (c.bytes 0 n).length = 0 := by rw [← brought, none]; rfl
    have zero : n = 0 := by simpa [Completion.bytes] using length
    exact positive zero

/-! ### Runs -/

/-- A run in progress: what it has handed out follows the messages, and besides the client it
only gives buffers back. -/
structure RunFollows (config : WsConfig) (clientKey : Text) (bytes : Bytes)
    (messages : List DataEvent) (late : Prop) (conn : ConnectionState) (run : BatchRun) : Prop where
  reads : ∃ read error, run.firstErr = error.map .ws ∧
    read.filterMap Event.data? = messages ++ run.tally.out.flatMap SinkItem.messages ∧
    Left config clientKey bytes read (conn.wsIngress = .clean) late run.conn.ws error
  clean : run.tally.wsError = none
  tls : run.conn.tls = conn.tls
  slots : run.conn.bufRing.map BufferRing.bufSize = conn.bufRing.map BufferRing.bufSize
  ingress : run.conn.wsIngress = conn.wsIngress
  state : run.conn.state = conn.state

theorem RunFollows.step {pump : PumpKind} (data : pump.isData = true) {run : BatchRun}
    (follows : RunFollows config clientKey bytes messages late conn run) {c : Completion} {bid : Nat}
    (named : c.bufferId = some bid) (positive : 0 < c.result) :
    RunFollows config clientKey (bytes ++ c.brought) messages late conn (run.step pump c) := by
  have answered : c.toResult = .ok c.result.toNat := if_pos (Int.le_of_lt positive)
  have brought : c.brought = c.bytes 0 c.result.toNat := by
    simp [Completion.brought, named, answered]
  obtain ⟨⟨read, error, failed, given, left⟩, clean, tls, slots, ingress, state⟩ := follows
  have stepped : run.step pump c =
      BatchRun.bytes pump { run with conn := run.conn.disarm c } c bid c.result.toNat := by
    unfold BatchRun.step
    have some_bytes : c.result.toNat ≠ 0 := by omega
    simp only [named, answered]
  rw [stepped, brought]
  unfold BatchRun.bytes
  dsimp only
  have observed : ((run.conn.disarm c).observeRecv pump).2.ws = run.conn.ws ∧
      ((run.conn.disarm c).observeRecv pump).2.tls = run.conn.tls ∧
      ((run.conn.disarm c).observeRecv pump).2.bufRing = run.conn.bufRing ∧
      ((run.conn.disarm c).observeRecv pump).2.wsIngress = run.conn.wsIngress ∧
      ((run.conn.disarm c).observeRecv pump).2.state = run.conn.state := by
    unfold observeRecv
    split <;> exact ⟨rfl, rfl, rfl, rfl, rfl⟩
  obtain ⟨ws₁, tls₁, ring₁, ingress₁, state₁⟩ := observed
  generalize ((run.conn.disarm c).observeRecv pump).1 = recvMeta
  generalize ((run.conn.disarm c).observeRecv pump).2 = conn₁ at ws₁ tls₁ ring₁ ingress₁ state₁ ⊢
  have slots₁ : conn₁.bufRing.map BufferRing.bufSize = conn.bufRing.map BufferRing.bufSize :=
    (congrArg _ ring₁).trans slots
  split
  next stopped =>
    refine ⟨⟨read, error, failed, given, ?_⟩, clean, tls₁.trans tls, ?_, ingress₁.trans ingress,
      state₁.trans state⟩
    · cases error with
      | none => simp [failed] at stopped
      | some e =>
          cases left with
          | ended _ ended => exact .ended e (ended.feed _)
    · exact ((conn₁.recordRecvData c.result.toNat).recycle_bufSize [bid]).trans slots₁
  next going =>
    obtain rfl : error = none := by
      cases error with
      | none => rfl
      | some e => simp [failed] at going
    have follows₁ : Reading.Follows config clientKey bytes messages (conn.wsIngress = .clean) late
        { (conn₁.recordRecvData c.result.toNat).toReader, run.tally with chunkIndex := 0 } := by
      refine ⟨read, given, ?_⟩
      show Left config clientKey bytes read _ late conn₁.ws run.tally.wsError
      rw [clean, ws₁]
      exact left
    have taken := Reading.take_follows follows₁ pump .plain recvMeta (c.bytes 0 c.result.toNat)
    rw [data, Bool.true_and] at taken
    generalize Reading.take pump .plain recvMeta
      { (conn₁.recordRecvData c.result.toNat).toReader, run.tally with chunkIndex := 0 }
      (c.bytes 0 c.result.toNat) = reading at taken ⊢
    obtain ⟨read', given', left'⟩ := taken
    refine ⟨⟨read', reading.wsError, rfl, given', left'⟩, rfl, tls₁.trans tls, ?_,
      ingress₁.trans ingress, state₁.trans state⟩
    exact (recycle_bufSize _ [bid]).trans slots₁

theorem RunFollows.run {pump : PumpKind} (data : pump.isData = true)
    (completions : List Completion) {bytes : Bytes} {run : BatchRun}
    (follows : RunFollows config clientKey bytes messages late conn run)
    (able : ∀ c ∈ completions, c.bufferId.isSome = true ∧ 0 < c.result) :
    RunFollows config clientKey (bytes ++ completions.flatMap Completion.brought) messages late
      conn (completions.foldl (BatchRun.step pump) run) := by
  induction completions generalizing bytes run with
  | nil =>
      rw [List.flatMap_nil, List.append_nil]
      exact follows
  | cons c completions ih =>
      obtain ⟨named, positive⟩ := able c List.mem_cons_self
      obtain ⟨bid, named⟩ := Option.isSome_iff_exists.mp named
      have rest := ih (follows.step data named positive)
        fun c' later => able c' (List.mem_cons_of_mem c later)
      rw [List.append_assoc] at rest
      exact rest

omit [AcceptDigest] in
/-- Copying a run gathers its bytes. -/
theorem foldl_copyCompletion_beside (completions : List Completion)
    (able : ∀ c ∈ completions, c.bufferId.isSome = true ∧ 0 < c.result) (conn : ConnectionState) :
    let copied := completions.foldl copyCompletion conn
    copied.plainRecvBatchScratch =
        conn.plainRecvBatchScratch ++ completions.flatMap Completion.brought ∧
      copied.toReader = conn.toReader ∧ copied.tls = conn.tls ∧
      copied.bufRing.map BufferRing.bufSize = conn.bufRing.map BufferRing.bufSize ∧
      copied.wsIngress = conn.wsIngress ∧ copied.state = conn.state := by
  dsimp only
  induction completions generalizing conn with
  | nil => exact ⟨(List.append_nil _).symm, rfl, rfl, rfl, rfl, rfl⟩
  | cons c completions ih =>
      obtain ⟨named, positive⟩ := able c List.mem_cons_self
      obtain ⟨bid, named⟩ := Option.isSome_iff_exists.mp named
      have answered : c.toResult = .ok c.result.toNat := if_pos (Int.le_of_lt positive)
      have brought : c.brought = c.bytes 0 c.result.toNat := by
        simp [Completion.brought, named, answered]
      obtain ⟨scratch, reader, tls, slots, ingress, state⟩ :=
        ih (fun c' later => able c' (List.mem_cons_of_mem c later)) (conn.copyCompletion c)
      refine ⟨?_, reader, tls, slots.trans (recycle_bufSize _ _), ingress, state⟩
      rw [List.foldl_cons, scratch, List.flatMap_cons, brought, ← List.append_assoc]
      rfl

omit [AcceptDigest] in
theorem canHandlePlainRecvDataBatch_brings {c : Completion}
    (able : conn.canHandlePlainRecvDataBatch c = true) :
    c.bufferId.isSome = true ∧ 0 < c.result := by
  simp only [canHandlePlainRecvDataBatch, Bool.and_eq_true, decide_eq_true_eq] at able
  exact ⟨able.2, able.1.2⟩

theorem handlePlainRecvDataBatchCopied_carries {pump : PumpKind} (data : pump.isData = true)
    (live : conn.Live config clientKey bytes messages late) (past : conn.PastUpgrade)
    {completions : List Completion}
    (brings : ∀ c ∈ completions, c.bufferId.isSome = true ∧ 0 < c.result) (total : Nat) :
    Carries config clientKey (bytes ++ completions.flatMap Completion.brought) messages late
      (conn.handlePlainRecvDataBatchCopied pump completions total) := by
  obtain ⟨scratch, reader, tls, slots, ingress, state⟩ :=
    foldl_copyCompletion_beside completions brings { conn with plainRecvBatchScratch := [] }
  unfold handlePlainRecvDataBatchCopied
  dsimp only
  generalize completions.foldl copyCompletion { conn with plainRecvBatchScratch := [] } = conn₁
    at scratch reader tls slots ingress state ⊢
  rw [List.nil_append] at scratch
  have ws : conn₁.ws = conn.ws := congrArg Reader.ws reader
  have live₁ : conn₁.Live config clientKey bytes messages late := live.of_same ws tls slots ingress
  have follows := Reading.take_follows live₁.start pump .plain {} conn₁.plainRecvBatchScratch
  have uses := Reading.take_uses pump .plain {} (Reading.start conn₁.toReader)
    conn₁.plainRecvBatchScratch
  rw [data, Bool.true_and] at follows
  rw [← scratch]
  generalize (Reading.start conn₁.toReader).take pump .plain {} conn₁.plainRecvBatchScratch =
    reading at follows uses ⊢
  have past₁ : conn₁.PastUpgrade := past.same state ws
  exact answer_carries follows rfl live₁.plain live₁.slots (fun clean => decide_eq_true clean)
    (past₁.uses rfl uses)

theorem handlePlainRecvDataBatchSlices_carries {pump : PumpKind} (data : pump.isData = true)
    (live : conn.Live config clientKey bytes messages late) (past : conn.PastUpgrade)
    {completions : List Completion}
    (brings : ∀ c ∈ completions, c.bufferId.isSome = true ∧ 0 < c.result) :
    Carries config clientKey (bytes ++ completions.flatMap Completion.brought) messages late
      (conn.handlePlainRecvDataBatchSlices pump completions) := by
  have begun : RunFollows config clientKey bytes messages late conn ⟨conn, {}, none⟩ := by
    obtain ⟨read, given, left⟩ := live.reads
    exact ⟨⟨read, none, rfl, given.trans (List.append_nil _).symm, left⟩, rfl, rfl, rfl, rfl, rfl⟩
  have uses := (foldl_step_advances pump completions ⟨conn, {}, none⟩).ws
  have follows := begun.run data completions brings
  unfold handlePlainRecvDataBatchSlices
  dsimp only
  generalize completions.foldl (BatchRun.step pump) ⟨conn, {}, none⟩ = run at uses follows ⊢
  obtain ⟨⟨read, error, failed, given, left⟩, -, tls, slots, ingress, state⟩ := follows
  refine ⟨?_, fun n answered => ?_, past.uses state uses⟩
  · show messages ++ run.tally.out.flatMap SinkItem.messages <+: _
    rw [← given]
    exact left.given.filterMap Event.data?
  · obtain rfl : error = none := by
      cases error with
      | none => rfl
      | some e => simp [failed] at answered
    refine ⟨⟨read, given, ?_⟩, tls.trans live.plain, live.slots_of slots⟩
    show Left config clientKey _ read (decide (run.conn.wsIngress = .clean)) late run.conn.ws none
    rw [ingress]
    exact left

/-- A run in the way of a data pump. -/
theorem handlePlainRecvDataBatchFor_carries {pump : PumpKind} (data : pump.isData = true)
    (live : conn.Live config clientKey bytes messages late) (past : conn.PastUpgrade)
    {completions : List Completion}
    (able : ∀ c ∈ completions, conn.canHandlePlainRecvDataBatch c = true) :
    Carries config clientKey (bytes ++ completions.flatMap Completion.brought) messages late
      (conn.handlePlainRecvDataBatchFor pump completions) := by
  have brings (c : Completion) (member : c ∈ completions) :=
    canHandlePlainRecvDataBatch_brings (able c member)
  have counted (copied : Option Nat) :
      (conn.recordPlainRecvBatch completions.length copied).Live config clientKey bytes messages
        late := live.of_same rfl rfl rfl rfl
  have past₁ (copied : Option Nat) :
      (conn.recordPlainRecvBatch completions.length copied).PastUpgrade := past.same rfl rfl
  unfold handlePlainRecvDataBatchFor
  split
  next total _ =>
    exact handlePlainRecvDataBatchCopied_carries data (counted _) (past₁ _) brings total
  next => exact handlePlainRecvDataBatchSlices_carries data (counted _) (past₁ _) brings

/-! ### Sending -/

/-- What a step that only sends leaves of a connection. -/
structure SendsOnly (conn conn' : ConnectionState) : Prop where
  ws : conn.ws.OnlySends conn'.ws
  plain : conn.tls = none → conn'.tls = none
  ring : conn'.bufRing = conn.bufRing
  ingress : conn'.wsIngress = conn.wsIngress
  state : conn'.state = conn.state

omit [Rustls] [AcceptDigest] in
theorem beginHandshake_onlySends (w : WsClient) : w.OnlySends w.beginHandshake.1 := by
  obtain same | ⟨tx, begun, -⟩ := w.beginHandshake_cases
  · rw [same]
    exact .refl w
  · rw [begun]
    exact ⟨tx, true, rfl⟩

omit [AcceptDigest] in
theorem PastUpgrade.sends (past : conn.PastUpgrade) (state : conn'.state = conn.state)
    (sends : conn.ws.OnlySends conn'.ws) : conn'.PastUpgrade := by
  intro active rank
  rw [sends.state]
  rw [state] at active rank
  exact past active rank

theorem Live.sends (live : conn.Live config clientKey bytes messages late)
    (sends : conn.SendsOnly conn') : conn'.Live config clientKey bytes messages late := by
  obtain ⟨read, given, left⟩ := live.reads
  refine ⟨⟨read, given, ?_⟩, sends.plain live.plain, live.slots_of (congrArg _ sends.ring)⟩
  rw [sends.ingress]
  exact left.sends sends.ws

theorem Streams.sends (streams : conn.Streams config clientKey bytes messages late)
    (sends : conn.SendsOnly conn') : conn'.Streams config clientKey bytes messages late := by
  refine ⟨streams.ordered, fun active => ?_, fun active isOpen => ?_,
    streams.past.sends sends.state sends.ws⟩
  · rw [sends.state] at active
    exact (streams.live active).sends sends
  · rw [sends.state] at active ⊢
    rw [sends.ws.state] at isOpen
    exact streams.follows active isOpen

theorem Streams.fails (streams : conn.Streams config clientKey bytes messages late) :
    { conn with state := .closed }.Streams config clientKey bytes messages late :=
  streams_closed streams.ordered rfl

omit [AcceptDigest] in
theorem Staged.sendsOnly (staged : conn.Staged conn') (ingress : conn'.wsIngress = conn.wsIngress) :
    conn.SendsOnly conn' := by
  obtain ⟨tx, reader⟩ := staged.reader
  refine ⟨⟨tx, conn.ws.handshakeStarted, congrArg Reader.ws reader⟩, fun plain => ?_, staged.ring,
    ingress, staged.state⟩
  have same := staged.tls
  rw [plain] at same
  simpa using same

omit [AcceptDigest] in
theorem stageSend_ingress (conn : ConnectionState) :
    conn.stageSend.1.wsIngress = conn.wsIngress := by
  have merged (conn : ConnectionState) : conn.mergeTlsPendingOut.wsIngress = conn.wsIngress := by
    unfold mergeTlsPendingOut
    split <;> rfl
  have staged (conn : ConnectionState) (bytes : Bytes) :
      (conn.stageWs bytes).wsIngress = conn.wsIngress := by
    unfold stageWs
    split <;> rfl
  have secured (conn : ConnectionState) (tls : TlsAdapter) :
      (conn.stageTls tls).1.wsIngress = conn.wsIngress := by
    unfold stageTls
    split
    next => rfl
    next =>
      dsimp only
      split <;> exact staged conn _
  have ready : conn.compactSend.mergeTlsPendingOut.wsIngress = conn.wsIngress := merged _
  unfold stageSend
  dsimp only
  split
  next => exact (staged _ _).trans ready
  next tls _ => exact (secured _ tls).trans ready

omit [AcceptDigest] in
theorem trySubmitSend_sendsOnly (conn : ConnectionState) (proactor : Proactor) :
    conn.SendsOnly (conn.trySubmitSend proactor).1 := by
  have staged := conn.stageSend_staged.sendsOnly conn.stageSend_ingress
  have same : conn.SendsOnly conn := ⟨.refl _, fun plain => plain, rfl, rfl, rfl⟩
  unfold trySubmitSend
  split
  next => exact same
  next =>
    split
    next conn₁ e stages =>
      rw [stages] at staged
      exact staged
    next conn₁ stages =>
      rw [stages] at staged
      split
      next => exact staged
      next =>
        split
        next => exact staged
        next => exact ⟨staged.ws, staged.plain, staged.ring, staged.ingress, staged.state⟩

omit [AcceptDigest] in
theorem tryRearmMultishot_sendsOnly (conn : ConnectionState) (proactor : Proactor) :
    conn.SendsOnly (conn.tryRearmMultishot proactor).1 := by
  have same : conn.SendsOnly conn := ⟨.refl _, fun plain => plain, rfl, rfl, rfl⟩
  rcases conn.tryRearmMultishot_cases proactor with ⟨result, stays⟩ | ⟨-, ring, present, armed⟩
  · rw [stays]
    exact same
  · rw [armed]
    exact ⟨.refl _, fun plain => plain, rfl, rfl, rfl⟩

/-! ### Other completions -/

omit [Rustls] [AcceptDigest] in
theorem bufSize_of_new {proactor proactor' : Proactor} {bgid entries bufSize : Nat}
    {ring : BufferRing} (made : BufferRing.new proactor bgid entries bufSize = (proactor', .ok ring)) :
    ring.bufSize ≠ 0 := by
  unfold BufferRing.new at made
  split at made
  next => cases made
  next =>
    split at made
    next => cases made
    next sized =>
      dsimp only at made
      split at made
      next => cases made
      next =>
        cases made
        exact sized

omit [AcceptDigest] in
theorem beginWsHandshake_sendsOnly (conn : ConnectionState) :
    conn.SendsOnly conn.beginWsHandshake.1 := by
  have begun := beginHandshake_onlySends conn.ws
  unfold beginWsHandshake
  split
  next ws e refused =>
    rw [refused] at begun
    exact ⟨begun, fun plain => plain, rfl, rfl, rfl⟩
  next ws began =>
    rw [began] at begun
    exact ⟨begun, fun plain => plain, rfl, rfl, rfl⟩

omit [AcceptDigest] in
/-- What a Connect completion leaves alone, and the ring it registers. -/
theorem onConnectCqe_beside (conn : ConnectionState) (proactor : Proactor) (c : Completion) :
    let conn' := (conn.onConnectCqe proactor c).1
    conn.ws.OnlySends conn'.ws ∧ conn'.tls = conn.tls ∧ conn'.wsIngress = conn.wsIngress ∧
      (conn'.state = conn.state ∨ conn'.state = conn.connectedState) ∧
      ∀ ring, conn'.bufRing = some ring → conn.bufRing = some ring ∨ ring.bufSize ≠ 0 := by
  have same : conn.ws.OnlySends conn.ws ∧ conn.tls = conn.tls ∧ conn.wsIngress = conn.wsIngress ∧
      (conn.state = conn.state ∨ conn.state = conn.connectedState) ∧
      ∀ ring, conn.bufRing = some ring → conn.bufRing = some ring ∨ ring.bufSize ≠ 0 :=
    ⟨.refl _, rfl, rfl, .inl rfl, fun _ => .inl⟩
  unfold onConnectCqe
  dsimp only
  split
  next => exact same
  next =>
    split
    next => exact same
    next ring made =>
      have sized := bufSize_of_new made
      have new (ring' : BufferRing) (held : some ring = some ring') :
          conn.bufRing = some ring' ∨ ring'.bufSize ≠ 0 :=
        .inr (Option.some.inj held ▸ sized)
      split
      next => exact same
      next =>
        split
        next =>
          refine ⟨(beginWsHandshake_sendsOnly _).ws, ?_, (beginWsHandshake_sendsOnly _).ingress,
            .inr (beginWsHandshake_sendsOnly _).state, fun ring' held => ?_⟩
          · unfold beginWsHandshake
            split <;> rfl
          · exact new ring' ((beginWsHandshake_sendsOnly _).ring.symm.trans held)
        next => exact ⟨.refl _, rfl, rfl, .inr rfl, new⟩

/-- A handler without sink calls that only sends. -/
theorem silently_carries (live : conn.Live config clientKey bytes messages late)
    (live' : conn'.Live config clientKey bytes messages late) (past : conn'.PastUpgrade)
    (result : Except ConnectionError Unit) :
    Carries config clientKey bytes messages late (silently (conn', result)) := by
  refine ⟨?_, fun _ _ => ?_, past⟩
  · show messages ++ [] <+: _
    rw [List.append_nil]
    exact live.ordered
  · show conn'.Live config clientKey bytes (messages ++ []) late
    rw [List.append_nil]
    exact live'

/-- A completion of a connection that is not closed. -/
theorem dispatchCompletion_carries (live : conn.Live config clientKey bytes messages late)
    (past : conn.PastUpgrade) (proactor : Proactor) (pump : PumpKind) (kind : OpKind)
    (c : Completion) (ringed : kind = .recv → c.brought ≠ [] → conn.bufRing ≠ none) :
    Carries config clientKey (bytes ++ if kind = .recv then c.brought else []) messages late
      (conn.dispatchCompletion proactor pump kind c).2 := by
  cases kind with
  | recv =>
      simp only [dispatchCompletion, recvHandler_eq, if_true]
      exact onRecvCqeFor_carries live past pump c (ringed rfl)
  | connect =>
      simp only [dispatchCompletion, reduceCtorEq, if_false, List.append_nil]
      obtain ⟨ws, tls, ingress, state, rings⟩ := conn.onConnectCqe_beside proactor c
      generalize conn.onConnectCqe proactor c = answered at ws tls ingress state rings ⊢
      obtain ⟨conn', proactor', result⟩ := answered
      dsimp only at ws tls ingress state rings ⊢
      obtain ⟨read, given, left⟩ := live.reads
      have live' : conn'.Live config clientKey bytes messages late := by
        refine ⟨⟨read, given, ?_⟩, tls.trans live.plain, fun ring held => ?_⟩
        · rw [ingress]
          exact left.sends ws
        · rcases rings ring held with before | sized
          · exact live.slots ring before
          · exact sized
      refine silently_carries live live' ?_ result
      rcases state with same | connected
      · exact past.sends same ws
      · intro _ rank
        rw [connected] at rank
        simp [connectedState, live.plain, State.rank] at rank
  | send =>
      simp only [dispatchCompletion, reduceCtorEq, if_false, List.append_nil]
      have same : (conn.onSendCqe c).1.ws = conn.ws ∧ (conn.onSendCqe c).1.tls = conn.tls ∧
          (conn.onSendCqe c).1.bufRing = conn.bufRing ∧
          (conn.onSendCqe c).1.wsIngress = conn.wsIngress ∧
          (conn.onSendCqe c).1.state = conn.state := by
        unfold onSendCqe
        dsimp only
        split <;> exact ⟨rfl, rfl, rfl, rfl, rfl⟩
      obtain ⟨ws, tls, ring, ingress, state⟩ := same
      exact silently_carries live (live.of_same ws tls (congrArg _ ring) ingress)
        (past.same state ws) (conn.onSendCqe c).2
  | close =>
      simp only [dispatchCompletion, reduceCtorEq, if_false, List.append_nil]
      have live' : { conn with state := .closed }.Live config clientKey bytes messages late :=
        live.of_same rfl rfl rfl rfl
      exact silently_carries live live' (pastUpgrade_closed rfl) (.ok ())
  | nop =>
      simp only [dispatchCompletion, reduceCtorEq, if_false, List.append_nil]
      exact silently_carries live live past (.ok ())

end ConnectionState

end Talaris
