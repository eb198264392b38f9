import Talaris.Ws.Progress

/-!
# The four drains deliver the same

Every member of the drain family is the same loop with another sink.  A relation between two
sinks that their operations keep (`SinkOps.Sim`) is kept by the whole drain, and the drain takes
the same way through the client (`drainFromIngress_sim`).  The relations of the batching and of
the marking sinks to the plain one state what they add: batches of 1 to 32 messages, and a
sequence number and an index for every message.
-/

namespace Talaris.Ws

/-! ## Drains with related sinks -/

section Simulation

variable {σ τ : Type}

/-- Two kinds of sinks whose operations keep a relation: `Filling` in a run of direct messages,
`Idle` outside of one. -/
structure SinkOps.Sim (ops : SinkOps σ) (ops' : SinkOps τ) (Filling Idle : σ → τ → Prop) :
    Prop where
  filling : ∀ {sink sink'}, Idle sink sink' → Filling sink sink'
  push : ∀ {sink sink'} event, Filling sink sink' →
    Filling (ops.push sink event) (ops'.push sink' event)
  flush : ∀ {sink sink'} chunkEnd, Filling sink sink' →
    Idle (ops.flush chunkEnd sink) (ops'.flush chunkEnd sink')
  single : ∀ {sink sink'} event, Idle sink sink' →
    Idle (ops.single sink event) (ops'.single sink' event)

/-- The same client and result, with related sinks. -/
structure SameDrain {α : Type} (related : σ → τ → Prop) (out : WsClient × σ × α)
    (out' : WsClient × τ × α) : Prop where
  client : out'.1 = out.1
  sink : related out.2.1 out'.2.1
  result : out'.2.2 = out.2.2

variable {ops : SinkOps σ} {ops' : SinkOps τ} {Filling Idle : σ → τ → Prop}

theorem directLoop_parsed {config : WsConfig} {sink : τ} {events frameLen : Nat} {bytes : Bytes}
    {event : DataEvent} (more : ¬ bytes.isEmpty = true)
    (parsed : parseCompleteServerDataFrame config bytes = .ok (.parsed event frameLen)) :
    directLoop ops' config sink events bytes =
      directLoop ops' config (ops'.push sink event) (events + 1) (bytes.drop frameLen) := by
  rw [directLoop, if_neg more]
  split <;> simp_all

theorem directLoop_sim (sim : ops.Sim ops' Filling Idle) (config : WsConfig) {sink : σ} {sink' : τ}
    (related : Filling sink sink') (events : Nat) (bytes : Bytes) :
    let run := directLoop ops config sink events bytes
    let run' := directLoop ops' config sink' events bytes
    Idle run.sink run'.sink ∧ run'.events = run.events ∧ run'.rest = run.rest ∧
      run'.result = run.result := by
  dsimp only
  fun_induction directLoop ops config sink events bytes generalizing sink' with
  | case1 sink events bytes empty =>
      rw [directLoop, if_pos empty]
      exact ⟨sim.flush true related, rfl, rfl, rfl⟩
  | case2 sink events bytes more event frameLen parsed ih =>
      rw [directLoop_parsed more parsed]
      exact ih (sim.push event related)
  | case3 sink events bytes more parsed =>
      rw [directLoop, if_neg more]
      split <;> simp_all
      exact sim.flush true related
  | case4 sink events bytes more parsed =>
      rw [directLoop, if_neg more]
      split <;> simp_all
      exact sim.flush false related
  | case5 sink events bytes more e parsed =>
      rw [directLoop, if_neg more]
      split <;> simp_all
      exact sim.flush true related

namespace WsClient

theorem tryDrain_sim (sim : ops.Sim ops' Filling Idle) (w : WsClient) {sink : σ} {sink' : τ}
    (related : Idle sink sink') :
    SameDrain Idle (w.tryDrain ops sink) (w.tryDrain ops' sink') := by
  unfold tryDrain
  split
  next => exact ⟨rfl, related, rfl⟩
  next =>
    obtain ⟨sinks, events, rest, result⟩ :=
      directLoop_sim sim w.config (sim.filling related) 0 w.recvBuf
    dsimp only
    rw [rest, result, events]
    split
    next => exact ⟨rfl, sinks, rfl⟩
    next => exact ⟨rfl, sinks, rfl⟩

theorem tryDrainIngress_sim (sim : ops.Sim ops' Filling Idle) (w : WsClient) (bytes : Bytes)
    {sink : σ} {sink' : τ} (related : Idle sink sink') :
    SameDrain Idle (w.tryDrainIngress ops bytes sink) (w.tryDrainIngress ops' bytes sink') := by
  obtain ⟨sinks, events, rest, result⟩ :=
    directLoop_sim sim w.config (sim.filling related) 0 bytes
  unfold tryDrainIngress
  dsimp only
  rw [rest, result, events]
  split
  next => exact ⟨rfl, sinks, rfl⟩
  next => exact ⟨rfl, sinks, rfl⟩

variable [AcceptDigest]

theorem drainEvent_sim (sim : ops.Sim ops' Filling Idle) (w : WsClient) {sink : σ} {sink' : τ}
    (related : Idle sink sink') (events : Nat) :
    SameDrain Idle (w.drainEvent ops sink events) (w.drainEvent ops' sink' events) := by
  unfold drainEvent
  split
  next => exact ⟨rfl, related, rfl⟩
  next => exact ⟨rfl, related, rfl⟩
  next w₁ event polled =>
    dsimp only
    cases event.data? with
    | none => exact ⟨rfl, related, rfl⟩
    | some data => exact ⟨rfl, sim.single data related, rfl⟩

theorem drainTurn_sim (sim : ops.Sim ops' Filling Idle) (w : WsClient) {sink : σ} {sink' : τ}
    (related : Idle sink sink') (events : Nat) :
    SameDrain Idle (w.drainTurn ops sink events) (w.drainTurn ops' sink' events) := by
  obtain ⟨client, sinks, result⟩ := tryDrain_sim sim w.clearAfterEmit related
  unfold drainTurn
  generalize w.clearAfterEmit.tryDrain ops sink = out at client sinks result
  generalize w.clearAfterEmit.tryDrain ops' sink' = out' at client sinks result
  obtain ⟨w₁, sink₁, tried⟩ := out
  obtain ⟨w₂, sink₂, tried'⟩ := out'
  dsimp only at client sinks result
  subst client result
  match tried' with
  | .error e => exact ⟨rfl, sinks, rfl⟩
  | .ok (direct, .drained) => exact ⟨rfl, sinks, rfl⟩
  | .ok (direct, .waitForMore) => exact ⟨rfl, sinks, rfl⟩
  | .ok (direct, .fallback) => exact drainEvent_sim sim w₂ sinks _

theorem drain_again {w w₁ : WsClient} {sink sink₁ : τ} {events more : Nat}
    (turned : w.drainTurn ops' sink events = (w₁, sink₁, .again more)) :
    w.drain ops' sink events = w₁.drain ops' sink₁ more := by
  rw [drain]
  split <;> simp_all

theorem drain_done {w w₁ : WsClient} {sink sink₁ : τ} {events : Nat} {result : Except WsError Nat}
    (turned : w.drainTurn ops' sink events = (w₁, sink₁, .done result)) :
    w.drain ops' sink events = (w₁, sink₁, result) := by
  rw [drain]
  split <;> simp_all

theorem drain_sim (sim : ops.Sim ops' Filling Idle) (w : WsClient) {sink : σ} {sink' : τ}
    (related : Idle sink sink') (events : Nat) :
    SameDrain Idle (w.drain ops sink events) (w.drain ops' sink' events) := by
  fun_induction drain ops w sink events generalizing sink' with
  | case1 w sink events w₁ sink₁ more turned ih =>
      obtain ⟨client, sinks, result⟩ := drainTurn_sim sim w related events
      rw [turned] at client sinks result
      generalize turned' : w.drainTurn ops' sink' events = out at client sinks result
      obtain ⟨w₂, sink₂, turn⟩ := out
      dsimp only at client sinks result
      subst client result
      rw [drain_again turned']
      exact ih sinks
  | case2 w sink events w₁ sink₁ answer turned =>
      obtain ⟨client, sinks, result⟩ := drainTurn_sim sim w related events
      rw [turned] at client sinks result
      generalize turned' : w.drainTurn ops' sink' events = out at client sinks result
      obtain ⟨w₂, sink₂, turn⟩ := out
      dsimp only at client sinks result
      subst client result
      rw [drain_done turned']
      exact ⟨rfl, sinks, rfl⟩

/-- Related sinks stay related over a drain, which does the same to the client. -/
theorem drainFromIngress_sim (sim : ops.Sim ops' Filling Idle) (w : WsClient) (bytes : Bytes)
    {sink : σ} {sink' : τ} (related : Idle sink sink') :
    SameDrain Idle (w.drainFromIngress ops bytes sink) (w.drainFromIngress ops' bytes sink') := by
  unfold drainFromIngress
  dsimp only
  split
  next => exact drain_sim sim _ related 0
  next =>
    split
    next =>
      obtain ⟨client, sinks, result⟩ := tryDrainIngress_sim sim w.clearAfterEmit bytes related
      generalize w.clearAfterEmit.tryDrainIngress ops bytes sink = out at client sinks result
      generalize w.clearAfterEmit.tryDrainIngress ops' bytes sink' = out' at client sinks result
      obtain ⟨w₁, sink₁, tried⟩ := out
      obtain ⟨w₂, sink₂, tried'⟩ := out'
      dsimp only at client sinks result
      subst client result
      match tried' with
      | .error e => exact ⟨rfl, sinks, rfl⟩
      | .ok (events, _, .drained) => exact ⟨rfl, sinks, rfl⟩
      | .ok (events, rest, .waitForMore) => exact ⟨rfl, sinks, rfl⟩
      | .ok (events, rest, .fallback) => exact drain_sim sim _ sinks events
    next => exact drain_sim sim _ related 0

end WsClient

end Simulation

/-! ## Batches -/

section Batches

variable {ε : Type} {events : List ε} {calls : List (EventBatch ε)} {batch : EventBatch ε}

/-- The batches delivered and the open one hold these events, 1 to 32 in each. -/
structure Packs (events : List ε) (calls : List (EventBatch ε)) (batch : EventBatch ε) :
    Prop where
  flat : calls.flatMap EventBatch.events ++ batch.events = events
  sized : ∀ call ∈ calls, 1 ≤ call.events.length ∧ call.events.length ≤ dataEventBatchCapacity
  small : batch.events.length ≤ dataEventBatchCapacity

theorem Packs.flushed (packs : Packs events calls batch) (nonempty : batch.events ≠ [])
    (chunkEnd : Bool) : Packs events (calls ++ [{ batch with chunkEnd }]) EventBatch.empty := by
  constructor
  case flat =>
    rw [List.flatMap_append, List.flatMap_singleton]
    simpa [EventBatch.empty] using packs.flat
  case sized =>
    intro call member
    rcases List.mem_append.mp member with earlier | last
    · exact packs.sized call earlier
    · obtain rfl := List.mem_singleton.mp last
      exact ⟨List.length_pos_iff.mpr nonempty, packs.small⟩
  case small => exact Nat.zero_le _

theorem Packs.pushed (packs : Packs events calls batch) (room : ¬ batch.isFull = true)
    (event : ε) : Packs (events ++ [event]) calls (batch.push event) := by
  have pushed : batch.push event = { batch with events := batch.events ++ [event] } := by
    rw [EventBatch.push, if_neg room]
  constructor
  case flat => rw [pushed, ← packs.flat, List.append_assoc]
  case sized => exact packs.sized
  case small =>
    rw [EventBatch.isFull_iff] at room
    have small := packs.small
    rw [pushed, List.length_append, List.length_singleton]
    omega

theorem Packs.single (packs : Packs events calls batch) (idle : batch.events = []) (event : ε) :
    Packs (events ++ [event]) (calls ++ [EventBatch.single event]) batch := by
  have alone : (EventBatch.single event).events = [event] := rfl
  constructor
  case flat =>
    rw [List.flatMap_append, List.flatMap_singleton, alone, idle, List.append_nil, ← packs.flat,
      idle, List.append_nil]
  case sized =>
    intro call member
    rcases List.mem_append.mp member with earlier | last
    · exact packs.sized call earlier
    · obtain rfl := List.mem_singleton.mp last
      rw [alone]
      exact ⟨Nat.le_refl 1, (by decide : 1 ≤ dataEventBatchCapacity)⟩
  case small => exact packs.small

end Batches

/-- The plain sink and the batching one. -/
def Batched (messages : List DataEvent) (sink : BatchSink DataEvent) : Prop :=
  Packs messages sink.calls sink.batch

theorem Batched.flush {messages : List DataEvent} {sink : BatchSink DataEvent}
    (batched : Batched messages sink) (chunkEnd : Bool) :
    Batched messages (sink.flushDataEventBatch chunkEnd) := by
  unfold BatchSink.flushDataEventBatch
  split
  next => exact batched
  next filled => exact Packs.flushed batched (by simpa using filled) chunkEnd

theorem dataEventBatchOps_sim :
    dataEventOps.Sim dataEventBatchOps Batched
      fun messages sink => Batched messages sink ∧ sink.batch.events = [] where
  filling related := related.1
  push {messages sink} event related := by
    show Batched (messages ++ [event]) _
    dsimp only [dataEventBatchOps]
    split
    next full =>
      have flushed := related.flush false
      refine Packs.pushed flushed ?_ event
      rw [EventBatch.isFull_iff, flushDataEventBatch_batch]
      decide
    next room => exact Packs.pushed related room event
  flush {messages sink} chunkEnd related :=
    ⟨related.flush chunkEnd, flushDataEventBatch_batch chunkEnd sink⟩
  single {messages sink} event related :=
    ⟨Packs.single related.1 related.2 event, related.2⟩

/-! ## Marks -/

/-- Sequence numbers from `start` on and indices from 0 on, both saturating. -/
def Numbered (start : Nat) (events : List MarkedDataEvent) : Prop :=
  ∀ i event, events[i]? = some event →
    event.eventMeta.messageSequence = min (start + i) u64Max ∧
      event.eventMeta.chunkMessageIndex = min i u16Max

/-- The counters after this many messages. -/
structure MarkedState.Counts (start count : Nat) (marked : MarkedState) : Prop where
  sequence : marked.messageSequence = min (start + count) u64Max
  index : marked.messageIndex = min count u16Max

theorem MarkedState.Counts.serviced {start count : Nat} {marked : MarkedState}
    (counts : marked.Counts start count) (sampled : Bool) :
    (marked.serviced sampled).Counts start count := by
  unfold MarkedState.serviced
  split <;> exact ⟨counts.sequence, counts.index⟩

/-- The next message gets the next numbers. -/
theorem MarkedState.Counts.next {start count : Nat} {marked : MarkedState}
    (counts : marked.Counts start count) (baseMeta : DataEventMeta) :
    (marked.nextMarkedMeta baseMeta).1.messageSequence = min (start + count) u64Max ∧
      (marked.nextMarkedMeta baseMeta).1.chunkMessageIndex = min count u16Max ∧
      (marked.nextMarkedMeta baseMeta).2.Counts start (count + 1) := by
  obtain ⟨sequence, index⟩ := counts
  have stamped : (marked.nextMarkedMeta baseMeta).1.messageSequence = marked.messageSequence ∧
      (marked.nextMarkedMeta baseMeta).1.chunkMessageIndex = marked.messageIndex := by
    simp only [nextMarkedMeta, DataEventMeta.wsPayloadReadyNow,
      DataEventMeta.withChunkPriorSinkServiceNanos]
    split <;> exact ⟨rfl, rfl⟩
  refine ⟨stamped.1.trans sequence, stamped.2.trans index, ?_, ?_⟩
  · show min (marked.messageSequence + 1) u64Max = _
    rw [sequence]
    omega
  · show min (marked.messageIndex + 1) u16Max = _
    rw [index]
    omega

/-- The messages with their marks, and the counters behind them. -/
structure Marked (start : Nat) (messages : List DataEvent) (events : List MarkedDataEvent)
    (marked : MarkedState) : Prop where
  messages : events.map MarkedDataEvent.event = messages
  numbered : Numbered start events
  counts : marked.Counts start events.length

theorem Marked.next {start : Nat} {messages : List DataEvent} {events : List MarkedDataEvent}
    {marked : MarkedState} (related : Marked start messages events marked)
    (baseMeta : DataEventMeta) (event : DataEvent) :
    Marked start (messages ++ [event])
      (events ++ [⟨event, (marked.nextMarkedMeta baseMeta).1⟩])
      (marked.nextMarkedMeta baseMeta).2 := by
  obtain ⟨sequence, index, counts⟩ := related.counts.next baseMeta
  constructor
  case messages => rw [List.map_append, related.messages, List.map_singleton]
  case numbered =>
    intro i found at_
    by_cases earlier : i < events.length
    · rw [List.getElem?_append_left earlier] at at_
      exact related.numbered i found at_
    · have last : i = events.length := by
        obtain ⟨inside, -⟩ := List.getElem?_eq_some_iff.mp at_
        simp only [List.length_append, List.length_singleton] at inside
        omega
      subst last
      rw [List.getElem?_append_right (Nat.le_refl _), Nat.sub_self, List.getElem?_cons_zero,
        Option.some.injEq] at at_
      subst at_
      exact ⟨sequence, index⟩
  case counts =>
    rw [List.length_append, List.length_singleton]
    exact counts

theorem Marked.serviced {start : Nat} {messages : List DataEvent} {events : List MarkedDataEvent}
    {marked : MarkedState} (related : Marked start messages events marked) (sampled : Bool) :
    Marked start messages events (marked.serviced sampled) :=
  ⟨related.messages, related.numbered, related.counts.serviced sampled⟩

theorem markedDataEventOps_sim (baseMeta : DataEventMeta) (start : Nat) :
    dataEventOps.Sim (markedDataEventOps baseMeta)
      (fun messages sink => Marked start messages sink.calls sink.marked)
      fun messages sink => Marked start messages sink.calls sink.marked where
  filling related := related
  push event related := (related.next baseMeta event).serviced _
  flush _ related := related
  single event related := (related.next baseMeta event).serviced _

/-- The plain sink and the one that marks and batches. -/
def MarkedBatched (start : Nat) (messages : List DataEvent) (sink : MarkedBatchSink) : Prop :=
  ∃ events, Packs events sink.calls sink.batch ∧ Marked start messages events sink.marked

theorem MarkedBatched.flush {start : Nat} {messages : List DataEvent} {sink : MarkedBatchSink}
    (related : MarkedBatched start messages sink) (sampled chunkEnd : Bool) :
    MarkedBatched start messages (sink.flushMarkedDataEventBatch sampled chunkEnd) := by
  obtain ⟨events, packs, marked⟩ := related
  unfold MarkedBatchSink.flushMarkedDataEventBatch
  split
  next => exact ⟨events, packs, marked⟩
  next filled => exact ⟨events, packs.flushed (by simpa using filled) chunkEnd, marked.serviced _⟩

theorem markedDataEventBatchOps_sim (baseMeta : DataEventMeta) (start : Nat) :
    dataEventOps.Sim (markedDataEventBatchOps baseMeta) (MarkedBatched start)
      fun messages sink => MarkedBatched start messages sink ∧ sink.batch.events = [] where
  filling related := related.1
  push {messages sink} event related := by
    show MarkedBatched start (messages ++ [event]) _
    dsimp only [markedDataEventBatchOps]
    split
    next full =>
      obtain ⟨events, packs, marked⟩ := related.flush baseMeta.sampled false
      refine ⟨_, packs.pushed ?_ _, marked.next baseMeta event⟩
      rw [EventBatch.isFull_iff, flushMarkedDataEventBatch_batch]
      decide
    next room =>
      obtain ⟨events, packs, marked⟩ := related
      exact ⟨_, packs.pushed room _, marked.next baseMeta event⟩
  flush {messages sink} chunkEnd related :=
    ⟨related.flush baseMeta.sampled chunkEnd,
      flushMarkedDataEventBatch_batch baseMeta.sampled chunkEnd sink⟩
  single {messages sink} event related := by
    obtain ⟨⟨events, packs, marked⟩, idle⟩ := related
    exact ⟨⟨_, packs.single idle _, (marked.next baseMeta event).serviced _⟩, idle⟩

/-! ## The family -/

section Family

variable [AcceptDigest]

/-- The four drains of a chunk, from any client: the same client and the same result; the same
messages, in batches of 1 to 32 where there are batches; and marks that count the messages of the
call, with the caller's counter behind the last one. -/
theorem drains_deliver_same (w : WsClient) (bytes : Bytes) (baseMeta : DataEventMeta)
    (clock clock' : Clock) (start : UInt64) :
    let plain := w.drainDataEventsFromIngress bytes
    let batches := w.drainDataEventBatchesFromIngress bytes
    let marked :=
      w.drainDataEventsFromIngressMarkedWithMessageSequence bytes baseMeta clock start.toNat
    let markedBatches := w.drainDataEventBatchesFromIngressMarkedWithMessageSequence bytes baseMeta
      clock' start.toNat
    let messages := plain.2.1
    (batches.1 = plain.1 ∧ batches.2.2 = plain.2.2 ∧
      batches.2.1.calls.flatMap EventBatch.events = messages ∧
      ∀ batch ∈ batches.2.1.calls,
        1 ≤ batch.events.length ∧ batch.events.length ≤ dataEventBatchCapacity) ∧
    (marked.1 = plain.1 ∧ marked.2.2 = plain.2.2 ∧
      marked.2.1.calls.map MarkedDataEvent.event = messages ∧
      Numbered start.toNat marked.2.1.calls ∧
      marked.2.1.marked.messageSequence = min (start.toNat + messages.length) u64Max) ∧
    (markedBatches.1 = plain.1 ∧ markedBatches.2.2 = plain.2.2 ∧
      (markedBatches.2.1.calls.flatMap EventBatch.events).map MarkedDataEvent.event = messages ∧
      Numbered start.toNat (markedBatches.2.1.calls.flatMap EventBatch.events) ∧
      markedBatches.2.1.marked.messageSequence = min (start.toNat + messages.length) u64Max ∧
      ∀ batch ∈ markedBatches.2.1.calls,
        1 ≤ batch.events.length ∧ batch.events.length ≤ dataEventBatchCapacity) := by
  have fits : start.toNat ≤ u64Max := by
    have bound := start.toNat_lt
    rw [u64Max]
    omega
  have empty {ε : Type} : Packs ([] : List ε) [] EventBatch.empty :=
    ⟨rfl, by simp, Nat.zero_le _⟩
  have fresh (clock : Clock) :
      Marked start.toNat [] [] (WsClient.markedStart clock start.toNat) := by
    refine ⟨rfl, by simp [Numbered], ?_, rfl⟩
    show start.toNat = min (start.toNat + 0) u64Max
    omega
  dsimp only
  refine ⟨?_, ?_, ?_⟩
  · have same : SameDrain _ (w.drainDataEventsFromIngress bytes)
        (w.drainDataEventBatchesFromIngress bytes) :=
      w.drainFromIngress_sim dataEventBatchOps_sim bytes ⟨empty, rfl⟩
    obtain ⟨client, ⟨packs, idle⟩, result⟩ := same
    have flat := packs.flat
    rw [idle, List.append_nil] at flat
    exact ⟨client, result, flat, packs.sized⟩
  · have same : SameDrain _ (w.drainDataEventsFromIngress bytes)
        (w.drainDataEventsFromIngressMarkedWithMessageSequence bytes baseMeta clock start.toNat) :=
      w.drainFromIngress_sim (markedDataEventOps_sim baseMeta start.toNat) bytes (fresh clock)
    obtain ⟨client, related, result⟩ := same
    refine ⟨client, result, related.messages, related.numbered, ?_⟩
    rw [related.counts.sequence, ← related.messages, List.length_map]
  · have same : SameDrain _ (w.drainDataEventsFromIngress bytes)
        (w.drainDataEventBatchesFromIngressMarkedWithMessageSequence bytes baseMeta clock'
          start.toNat) :=
      w.drainFromIngress_sim (markedDataEventBatchOps_sim baseMeta start.toNat) bytes
        ⟨⟨[], empty, fresh clock'⟩, rfl⟩
    obtain ⟨client, ⟨⟨events, packs, related⟩, idle⟩, result⟩ := same
    have flat := packs.flat
    rw [idle, List.append_nil] at flat
    rw [flat]
    refine ⟨client, result, related.messages, related.numbered, ?_, packs.sized⟩
    rw [related.counts.sequence, ← related.messages, List.length_map]

end Family

end Talaris.Ws
