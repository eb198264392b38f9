import Talaris.Observability.Histograms
import Talaris.Ws.Variants

/-!
# Latencies of a chunk

A marked drain of a sampled chunk reads the clock once for every message and twice around every
sink call.  What the sink took so far is added up from these readings and goes into the metadata
of the messages that come later.  On a clock that does not go back the sum is never more than the
time since the chunk was ready, so no latency of any message is missing
(`drains_attributed`).
-/

namespace Talaris

/-! ## Readings -/

namespace Clock

/-- What a reading of the monotonic clock gives, by its place in the order of readings. -/
def reading (clock : Clock) (k : Nat) : Nat := min (clock.mono k) u64Max

/-- The same clock, later on. -/
structure Before (earlier later : Clock) : Prop where
  mono : later.mono = earlier.mono
  reads : earlier.monoReads ≤ later.monoReads

theorem Before.refl (clock : Clock) : clock.Before clock := ⟨rfl, Nat.le_refl _⟩

theorem Before.trans {first second third : Clock} (before : first.Before second)
    (after : second.Before third) : first.Before third :=
  ⟨after.mono.trans before.mono, Nat.le_trans before.reads after.reads⟩

theorem reading_le {clock : Clock} (steady : Monotone clock.mono) {j k : Nat} (order : j ≤ k) :
    clock.reading j ≤ clock.reading k :=
  min_le_min_right u64Max (steady order)

theorem reading_le_max (clock : Clock) (k : Nat) : clock.reading k ≤ u64Max := Nat.min_le_right _ _

/-- The time that each sink call takes, from the reading before it to the one after it.  The
calls carry these numbers of messages, each of which takes a reading ahead of its call. -/
def sinkServices (clock : Clock) : (reads : Nat) → (sizes : List Nat) → List Nat
  | _, [] => []
  | reads, size :: sizes =>
      (clock.reading (reads + size + 1) - clock.reading (reads + size)) ::
        sinkServices clock (reads + size + 2) sizes

/-- The readings that such calls take. -/
def sinkReads (sizes : List Nat) : Nat := (sizes.map (· + 2)).sum

theorem sinkReads_append (sizes : List Nat) (size : Nat) :
    sinkReads (sizes ++ [size]) = sinkReads sizes + (size + 2) := by
  simp [sinkReads]

@[simp] theorem sinkServices_length (clock : Clock) (reads : Nat) (sizes : List Nat) :
    (clock.sinkServices reads sizes).length = sizes.length := by
  induction sizes generalizing reads with
  | nil => rfl
  | cons size sizes ih => simp [sinkServices, ih]

theorem sinkServices_append (clock : Clock) (reads : Nat) (sizes : List Nat) (size : Nat) :
    clock.sinkServices reads (sizes ++ [size]) =
      clock.sinkServices reads sizes ++
        [clock.reading (reads + sinkReads sizes + size + 1) -
          clock.reading (reads + sinkReads sizes + size)] := by
  induction sizes generalizing reads with
  | nil => rfl
  | cons first sizes ih =>
      have place : reads + sinkReads (first :: sizes) = reads + first + 2 + sinkReads sizes := by
        simp only [sinkReads, List.map_cons, List.sum_cons]
        omega
      rw [List.cons_append, sinkServices, ih, sinkServices, place, List.cons_append]

end Clock

/-! ## When a chunk is ready -/

namespace DataEventMeta

/-- The receive was observed by this time, if it is sampled. -/
def Observed (recvMeta : DataEventMeta) (clock : Clock) : Prop :=
  recvMeta.sampled = true → recvMeta.transportRecvMonoNanos ≤ clock.reading clock.monoReads

/-- The chunk was received, and later on ready, by this time, if it is sampled. -/
structure Ready (base : DataEventMeta) (clock : Clock) : Prop where
  received : base.sampled = true → base.transportRecvMonoNanos ≤ base.tlsPlaintextReadyMonoNanos
  ready : base.sampled = true → base.tlsPlaintextReadyMonoNanos ≤ clock.reading clock.monoReads

/-- The base metadata of a chunk and the clock afterwards: decrypted bytes are ready now, plain
ones were ready on receipt. -/
inductive Chunk (recvMeta : DataEventMeta) (clock : Clock) : DataEventMeta → Clock → Prop
  | now (chunkIndex : Nat) :
      Chunk recvMeta clock (recvMeta.plaintextReadyNow clock chunkIndex).1
        (recvMeta.plaintextReadyNow clock chunkIndex).2
  | onReceipt (chunkIndex : Nat) :
      Chunk recvMeta clock
        (recvMeta.plaintextReadyAt recvMeta.transportRecvMonoNanos chunkIndex) clock

variable {recvMeta base : DataEventMeta} {clock start : Clock}

theorem Observed.later (observed : recvMeta.Observed clock) (before : clock.Before start)
    (steady : Monotone clock.mono) : recvMeta.Observed start := by
  intro sampled
  have order : clock.reading clock.monoReads ≤ clock.reading start.monoReads :=
    Clock.reading_le steady before.reads
  have same : start.reading start.monoReads = clock.reading start.monoReads := by
    rw [Clock.reading, Clock.reading, before.mono]
  rw [same]
  exact Nat.le_trans (observed sampled) order

theorem recvObservedNow_before (clock : Clock) (recvSequence : Nat) (sampled : Bool) :
    clock.Before (recvObservedNow clock recvSequence sampled).2 := by
  cases sampled with
  | false => exact Clock.Before.refl clock
  | true => exact ⟨rfl, Nat.le_succ _⟩

@[simp] theorem recvObservedNow_sampled (clock : Clock) (recvSequence : Nat) (sampled : Bool) :
    (recvObservedNow clock recvSequence sampled).1.sampled = sampled := by
  cases sampled <;> rfl

theorem recvObservedNow_observed (steady : Monotone clock.mono) (recvSequence : Nat)
    (sampled : Bool) :
    (recvObservedNow clock recvSequence sampled).1.Observed
      (recvObservedNow clock recvSequence sampled).2 := by
  cases sampled with
  | false =>
      intro found
      cases found
  | true =>
      intro _
      exact Clock.reading_le steady (Nat.le_succ _)

namespace Chunk

theorem before (chunk : Chunk recvMeta clock base start) : clock.Before start := by
  cases chunk with
  | onReceipt => exact Clock.Before.refl clock
  | now =>
      rw [plaintextReadyNow]
      split
      next => exact ⟨rfl, Nat.le_succ _⟩
      next => exact Clock.Before.refl clock

theorem sampled (chunk : Chunk recvMeta clock base start) : base.sampled = recvMeta.sampled := by
  cases chunk with
  | onReceipt => rfl
  | now =>
      rw [plaintextReadyNow]
      split <;> rfl

theorem ready (chunk : Chunk recvMeta clock base start) (observed : recvMeta.Observed clock)
    (steady : Monotone clock.mono) : base.Ready start := by
  have same := chunk.sampled
  cases chunk with
  | onReceipt chunkIndex =>
      constructor
      · intro sampled
        simp only [plaintextReadyAt, same ▸ sampled, if_true, Nat.le_refl]
      · intro sampled
        simpa only [plaintextReadyAt, same ▸ sampled, if_true] using observed (same ▸ sampled)
  | now chunkIndex =>
      constructor
      · intro sampled
        simp only [plaintextReadyNow, plaintextReadyAt, same ▸ sampled, if_true]
        exact observed (same ▸ sampled)
      · intro sampled
        simp only [plaintextReadyNow, plaintextReadyAt, same ▸ sampled, if_true]
        exact Clock.reading_le steady (Nat.le_succ _)

end Chunk

end DataEventMeta

namespace Ws

open Talaris

/-! ## One message, one call -/

/-- The metadata of a message in a chunk with this base metadata, after earlier sink calls. -/
structure Stamped (base : DataEventMeta) (earlier : Nat) (stamp : DataEventMeta) : Prop where
  sampled : stamp.sampled = base.sampled
  received : stamp.transportRecvMonoNanos = base.transportRecvMonoNanos
  ready : stamp.tlsPlaintextReadyMonoNanos = base.tlsPlaintextReadyMonoNanos
  prior : stamp.chunkPriorSinkServiceNanos = earlier
  room : base.tlsPlaintextReadyMonoNanos + earlier ≤ stamp.wsPayloadReadyMonoNanos

theorem Stamped.attributed {base stamp : DataEventMeta} {prior : Nat}
    (stamped : Stamped base prior stamp) (sampled : base.sampled = true)
    (received : base.transportRecvMonoNanos ≤ base.tlsPlaintextReadyMonoNanos) :
    stamp.Attributed prior := by
  obtain ⟨same, recv, ready, rfl, room⟩ := stamped
  apply DataEventMeta.attributed
  · rw [same, sampled]
  · rw [recv, ready]
    exact received
  · rw [ready]
    exact room

/-- What the sink calls took, given the metadata of the messages in each. -/
def services (start : Clock) (calls : List (List DataEventMeta)) : List Nat :=
  start.sinkServices start.monoReads (calls.map List.length)

@[simp] theorem services_length (start : Clock) (calls : List (List DataEventMeta)) :
    (services start calls).length = calls.length := by
  simp [services]

/-- A sampled drain under way since `start`: the sink calls made, and the messages that wait for
the next one. -/
structure Measured (start : Clock) (base : DataEventMeta) (calls : List (List DataEventMeta))
    (waiting : List DataEventMeta) (marked : MarkedState) : Prop where
  reads : marked.clock.monoReads =
    start.monoReads + Clock.sinkReads (calls.map List.length) + waiting.length
  prior : marked.chunkPriorSinkServiceNanos = (services start calls).sum
  room : base.tlsPlaintextReadyMonoNanos + (services start calls).sum ≤
    start.reading marked.clock.monoReads
  served : ∀ (j : Nat) (call : List DataEventMeta), calls[j]? = some call →
    ∀ stamp ∈ call, Stamped base ((services start calls).take j).sum stamp
  waits : ∀ stamp ∈ waiting, Stamped base (services start calls).sum stamp

/-- A marked drain under way; without a sample it only leaves the clock alone. -/
structure Clocked (start : Clock) (base : DataEventMeta) (calls : List (List DataEventMeta))
    (waiting : List DataEventMeta) (marked : MarkedState) : Prop where
  clock : start.Before marked.clock
  sampled : ∀ stamp ∈ calls.flatten ++ waiting, stamp.sampled = base.sampled
  measured : base.sampled = true → Measured start base calls waiting marked

section Steps

variable {start : Clock} {base : DataEventMeta} {calls : List (List DataEventMeta)}
variable {waiting : List DataEventMeta} {marked : MarkedState}

theorem nextMarkedMeta_sampled (marked : MarkedState) (base : DataEventMeta) :
    (marked.nextMarkedMeta base).1.sampled = base.sampled := by
  simp only [MarkedState.nextMarkedMeta, DataEventMeta.wsPayloadReadyNow,
    DataEventMeta.withChunkPriorSinkServiceNanos]
  split <;> rfl

theorem nextMarkedMeta_clock (marked : MarkedState) (base : DataEventMeta) :
    (marked.nextMarkedMeta base).2.clock =
      if base.sampled then marked.clock.monotonicNanosNow.2 else marked.clock := by
  simp only [MarkedState.nextMarkedMeta, DataEventMeta.wsPayloadReadyNow]
  split <;> rfl

theorem serviced_clock (marked : MarkedState) (sampled : Bool) :
    (marked.serviced sampled).clock =
      if sampled then { marked.clock with monoReads := marked.clock.monoReads + 2 }
      else marked.clock := by
  cases sampled <;> rfl

/-- The next message of a sampled chunk reads the clock once. -/
theorem Measured.next (measured : Measured start base calls waiting marked)
    (before : start.Before marked.clock) (steady : Monotone start.mono)
    (sampled : base.sampled = true) :
    Measured start base calls (waiting ++ [(marked.nextMarkedMeta base).1])
      (marked.nextMarkedMeta base).2 := by
  obtain ⟨reads, prior, room, served, waits⟩ := measured
  have reading : min (marked.clock.mono marked.clock.monoReads) u64Max =
      start.reading marked.clock.monoReads := by rw [before.mono, Clock.reading]
  have stamped : Stamped base (services start calls).sum (marked.nextMarkedMeta base).1 := by
    simp only [MarkedState.nextMarkedMeta, DataEventMeta.wsPayloadReadyNow, sampled, if_true,
      Clock.monotonicNanosNow, DataEventMeta.withChunkPriorSinkServiceNanos, reading]
    exact ⟨sampled.symm, rfl, rfl, prior, room⟩
  have clock : (marked.nextMarkedMeta base).2.clock = marked.clock.monotonicNanosNow.2 := by
    rw [nextMarkedMeta_clock, if_pos sampled]
  constructor
  case reads =>
    rw [clock, List.length_append, List.length_singleton, ← Nat.add_assoc, ← reads]
    rfl
  case prior => exact prior
  case room =>
    rw [clock]
    exact Nat.le_trans room (Clock.reading_le steady (Nat.le_succ _))
  case served => exact served
  case waits =>
    intro stamp member
    rcases List.mem_append.mp member with earlier | last
    · exact waits stamp earlier
    · rw [List.mem_singleton] at last
      rw [last]
      exact stamped

/-- A sink call takes the messages that wait; the clock is read before and after it. -/
theorem Measured.call (measured : Measured start base calls waiting marked)
    (before : start.Before marked.clock) (steady : Monotone start.mono) :
    Measured start base (calls ++ [waiting]) [] (marked.serviced true) := by
  obtain ⟨reads, prior, room, served, waits⟩ := measured
  generalize at_ : marked.clock.monoReads = position at reads room
  have longer : services start (calls ++ [waiting]) =
      services start calls ++ [start.reading (position + 1) - start.reading position] := by
    rw [services, List.map_append, List.map_singleton, Clock.sinkServices_append, ← reads]
    rfl
  have sum : (services start (calls ++ [waiting])).sum =
      (services start calls).sum + (start.reading (position + 1) - start.reading position) := by
    rw [longer, List.sum_append, List.sum_singleton]
  have order : start.reading position ≤ start.reading (position + 1) :=
    Clock.reading_le steady (Nat.le_succ _)
  -- the sum stays below the last reading, so it does not saturate
  have bound := start.reading_le_max (position + 1)
  constructor
  case reads =>
    rw [serviced_clock, if_pos rfl, at_, List.map_append, List.map_singleton,
      Clock.sinkReads_append, reads]
    simp only [List.length_nil]
    omega
  case prior =>
    have measured : (marked.serviced true).chunkPriorSinkServiceNanos =
        min (marked.chunkPriorSinkServiceNanos +
          (start.reading (position + 1) - start.reading position)) u64Max := by
      simp only [MarkedState.serviced, if_true, Clock.monotonicNanosNow, Clock.reading,
        before.mono, at_]
    rw [measured, prior, sum]
    omega
  case room =>
    rw [serviced_clock, if_pos rfl, at_, sum]
    have later : start.reading (position + 1) ≤ start.reading (position + 2) :=
      Clock.reading_le steady (Nat.le_succ _)
    show _ ≤ start.reading (position + 2)
    omega
  case served =>
    intro j carried found stamp member
    by_cases earlier : j < calls.length
    · rw [List.getElem?_append_left earlier] at found
      rw [longer, List.take_append_of_le_length (by simp [Nat.le_of_lt earlier])]
      exact served j carried found stamp member
    · have last : j = calls.length := by
        obtain ⟨inside, -⟩ := List.getElem?_eq_some_iff.mp found
        rw [List.length_append, List.length_singleton] at inside
        omega
      subst last
      rw [List.getElem?_append_right (Nat.le_refl _), Nat.sub_self, List.getElem?_cons_zero,
        Option.some.injEq] at found
      subst found
      rw [longer, ← services_length start calls, List.take_left]
      exact waits stamp member
  case waits =>
    intro stamp member
    simp at member

namespace Clocked

theorem fresh (ready : base.sampled = true →
      base.tlsPlaintextReadyMonoNanos ≤ start.reading start.monoReads) (messageSequence : Nat) :
    Clocked start base [] [] (WsClient.markedStart start messageSequence) where
  clock := Clock.Before.refl start
  sampled stamp member := by simp at member
  measured sampled :=
    { reads := rfl
      prior := rfl
      room := ready sampled
      served := fun j call found => by simp at found
      waits := fun stamp member => by simp at member }

theorem next (clocked : Clocked start base calls waiting marked) (steady : Monotone start.mono) :
    Clocked start base calls (waiting ++ [(marked.nextMarkedMeta base).1])
      (marked.nextMarkedMeta base).2 where
  clock := by
    rw [nextMarkedMeta_clock]
    split
    next => exact clocked.clock.trans ⟨rfl, Nat.le_succ _⟩
    next => exact clocked.clock
  sampled stamp member := by
    rw [← List.append_assoc, List.mem_append, List.mem_singleton] at member
    rcases member with earlier | rfl
    · exact clocked.sampled stamp earlier
    · exact nextMarkedMeta_sampled marked base
  measured sampled := (clocked.measured sampled).next clocked.clock steady sampled

theorem call (clocked : Clocked start base calls waiting marked) (steady : Monotone start.mono) :
    Clocked start base (calls ++ [waiting]) [] (marked.serviced base.sampled) where
  clock := by
    rw [serviced_clock]
    split
    next => exact clocked.clock.trans ⟨rfl, Nat.le_add_right _ 2⟩
    next => exact clocked.clock
  sampled stamp member := by
    apply clocked.sampled stamp
    simpa using member
  measured sampled := by
    rw [sampled]
    exact (clocked.measured sampled).call clocked.clock steady

/-- All latencies of all messages delivered, with the sink calls before each. -/
theorem attributed (clocked : Clocked start base calls waiting marked)
    (sampled : base.sampled = true)
    (received : base.transportRecvMonoNanos ≤ base.tlsPlaintextReadyMonoNanos) {j : Nat}
    {call : List DataEventMeta} (found : calls[j]? = some call) {stamp : DataEventMeta}
    (member : stamp ∈ call) : stamp.Attributed ((services start calls).take j).sum :=
  ((clocked.measured sampled).served j call found stamp member).attributed sampled received

end Clocked

end Steps

/-! ## The sinks -/

/-- The metadata that each sink call carries. -/
def MarkedSink.stamps (sink : MarkedSink) : List (List DataEventMeta) :=
  sink.calls.map fun event => [event.eventMeta]

def MarkedBatchSink.stamps (sink : MarkedBatchSink) : List (List DataEventMeta) :=
  sink.calls.map fun batch => batch.events.map MarkedDataEvent.eventMeta

section Sinks

variable {start : Clock} {base : DataEventMeta}

theorem MarkedSink.emit_clocked (steady : Monotone start.mono) {sink : MarkedSink}
    (clocked : Clocked start base sink.stamps [] sink.marked) (event : DataEvent) :
    Clocked start base (sink.emit base event).stamps [] (sink.emit base event).marked := by
  have called := (clocked.next steady).call steady
  show Clocked start base (List.map (fun event => [event.eventMeta]) (sink.calls ++ [_])) []
    (MarkedState.serviced _ (sink.marked.nextMarkedMeta base).1.sampled)
  rw [nextMarkedMeta_sampled, List.map_append]
  exact called

theorem markedDataEventOps_clocked (steady : Monotone start.mono) :
    dataEventOps.Sim (markedDataEventOps base)
      (fun _ sink => Clocked start base sink.stamps [] sink.marked)
      fun _ sink => Clocked start base sink.stamps [] sink.marked where
  filling related := related
  push event related := MarkedSink.emit_clocked steady related event
  flush _ related := related
  single event related := MarkedSink.emit_clocked steady related event

/-- A batch sink under way. -/
def MarkedBatchSink.Clocked (start : Clock) (base : DataEventMeta) (sink : MarkedBatchSink) :
    Prop :=
  Ws.Clocked start base sink.stamps (sink.batch.events.map MarkedDataEvent.eventMeta) sink.marked

namespace MarkedBatchSink

theorem Clocked.flush (steady : Monotone start.mono) {sink : MarkedBatchSink}
    (clocked : sink.Clocked start base) (chunkEnd : Bool) :
    (sink.flushMarkedDataEventBatch base.sampled chunkEnd).Clocked start base := by
  rw [flushMarkedDataEventBatch]
  split
  next => exact clocked
  next =>
    have called := Ws.Clocked.call clocked steady
    rw [Clocked, stamps, List.map_append]
    exact called

theorem Clocked.push (steady : Monotone start.mono) {sink : MarkedBatchSink}
    (clocked : sink.Clocked start base) (room : ¬ sink.batch.isFull = true) (event : DataEvent) :
    ({ sink with
      batch := sink.batch.push ⟨event, (sink.marked.nextMarkedMeta base).1⟩
      marked := (sink.marked.nextMarkedMeta base).2 } : MarkedBatchSink).Clocked start base := by
  have stamped := Ws.Clocked.next clocked steady
  rw [Clocked, EventBatch.push, if_neg room, List.map_append]
  exact stamped

theorem Clocked.single (steady : Monotone start.mono) {sink : MarkedBatchSink}
    (clocked : sink.Clocked start base) (idle : sink.batch.events = []) (event : DataEvent) :
    ((markedDataEventBatchOps base).single sink event).Clocked start base := by
  have waiting : sink.batch.events.map MarkedDataEvent.eventMeta = [] := by rw [idle, List.map_nil]
  rw [Clocked, waiting] at clocked
  have called := (Ws.Clocked.next clocked steady).call steady
  show Ws.Clocked start base
    (List.map (fun batch => batch.events.map MarkedDataEvent.eventMeta) (sink.calls ++ [_]))
    (sink.batch.events.map MarkedDataEvent.eventMeta)
    (MarkedState.serviced _ (sink.marked.nextMarkedMeta base).1.sampled)
  rw [nextMarkedMeta_sampled, List.map_append, waiting]
  exact called

end MarkedBatchSink

theorem markedDataEventBatchOps_clocked (steady : Monotone start.mono) :
    dataEventOps.Sim (markedDataEventBatchOps base) (fun _ sink => sink.Clocked start base)
      fun _ sink => sink.Clocked start base ∧ sink.batch.events = [] where
  filling related := related.1
  push {messages sink} event related := by
    dsimp only [markedDataEventBatchOps]
    split
    next full =>
      refine (related.flush steady false).push steady ?_ event
      rw [EventBatch.isFull_iff, flushMarkedDataEventBatch_batch]
      decide
    next room => exact related.push steady room event
  flush chunkEnd related :=
    ⟨related.flush steady chunkEnd, flushMarkedDataEventBatch_batch base.sampled chunkEnd _⟩
  single event related := ⟨related.1.single steady related.2 event, related.2⟩

end Sinks

/-! ## The drains -/

variable [AcceptDigest]

/-- The marked drains: of the caller's bytes or of the receive buffer, with single messages or
batches. -/
inductive MarkedDrain where
  | ingressEvents (bytes : Bytes) (messageSequence : Nat)
  | ingressBatches (bytes : Bytes) (messageSequence : Nat)
  | events
  | batches

/-- The metadata in each sink call of a marked drain, and its counters at the end. -/
def WsClient.markedCalls (w : WsClient) (base : DataEventMeta) (start : Clock) :
    MarkedDrain → List (List DataEventMeta) × MarkedState
  | .ingressEvents bytes messageSequence =>
      let (_, sink, _) :=
        w.drainDataEventsFromIngressMarkedWithMessageSequence bytes base start messageSequence
      (sink.stamps, sink.marked)
  | .ingressBatches bytes messageSequence =>
      let (_, sink, _) :=
        w.drainDataEventBatchesFromIngressMarkedWithMessageSequence bytes base start
          messageSequence
      (sink.stamps, sink.marked)
  | .events =>
      let (_, sink, _) := w.drainDataEventsMarked base start
      (sink.stamps, sink.marked)
  | .batches =>
      let (_, sink, _) := w.drainDataEventBatchesMarked base start
      (sink.stamps, sink.marked)

theorem markedCalls_clocked (w : WsClient) {base : DataEventMeta} {start : Clock}
    (steady : Monotone start.mono) (ready : base.Ready start) (drain : MarkedDrain) :
    Clocked start base (w.markedCalls base start drain).1 [] (w.markedCalls base start drain).2 := by
  have fresh := Clocked.fresh ready.ready
  have idle (messageSequence : Nat) :
      MarkedBatchSink.Clocked start base
          ⟨[], EventBatch.empty, WsClient.markedStart start messageSequence⟩ ∧
        (EventBatch.empty : MarkedDataEventBatch).events = [] :=
    ⟨fresh messageSequence, rfl⟩
  have batch {sink : MarkedBatchSink} (related : sink.Clocked start base ∧ sink.batch.events = []) :
      Clocked start base sink.stamps [] sink.marked := by
    obtain ⟨clocked, idle⟩ := related
    rw [MarkedBatchSink.Clocked, idle] at clocked
    exact clocked
  cases drain with
  | ingressEvents bytes messageSequence =>
      have same : SameDrain _ (w.drainDataEventsFromIngress bytes)
          (w.drainDataEventsFromIngressMarkedWithMessageSequence bytes base start
            messageSequence) :=
        w.drainFromIngress_sim (markedDataEventOps_clocked steady) bytes (fresh messageSequence)
      exact same.sink
  | ingressBatches bytes messageSequence =>
      have same : SameDrain _ (w.drainDataEventsFromIngress bytes)
          (w.drainDataEventBatchesFromIngressMarkedWithMessageSequence bytes base start
            messageSequence) :=
        w.drainFromIngress_sim (markedDataEventBatchOps_clocked steady) bytes (idle messageSequence)
      exact batch same.sink
  | events =>
      have same : SameDrain _ w.drainDataEvents (w.drainDataEventsMarked base start) :=
        w.drain_sim (markedDataEventOps_clocked steady) (fresh base.messageSequence) 0
      exact same.sink
  | batches =>
      have same : SameDrain _ w.drainDataEvents (w.drainDataEventBatchesMarked base start) :=
        w.drain_sim (markedDataEventBatchOps_clocked steady) (idle base.messageSequence) 0
      exact batch same.sink

end Ws

end Talaris
