import Talaris.Ws.Client

/-!
# Event metadata and event batches

The marked data path attaches a `DataEventMeta` to every message and reads the
clock when a receive is sampled.  The clock is an arbitrary sequence of readings.
-/

namespace Talaris

open Talaris.Ws

/-- `u64::MAX` -/
def u64Max : Nat := 2 ^ 64 - 1

/-- `u16::MAX` -/
def u16Max : Nat := 2 ^ 16 - 1

/-- `u64::checked_sub` -/
def checkedSub (a b : Nat) : Option Nat := if b ≤ a then some (a - b) else none

/-- Readings of the process clocks in the order they are taken. -/
structure Clock where
  mono : Nat → Nat
  unix : Nat → Int
  monoReads : Nat
  unixReads : Nat

namespace Clock

def monotonicNanosNow (clock : Clock) : Nat × Clock :=
  (min (clock.mono clock.monoReads) u64Max, { clock with monoReads := clock.monoReads + 1 })

def unixEpochNanosNow (clock : Clock) : Int × Clock :=
  (clock.unix clock.unixReads, { clock with unixReads := clock.unixReads + 1 })

end Clock

/-- Sampling rate in basis points, at most `10000`. -/
structure ObservabilitySampleRate where
  basisPoints : Nat
  deriving DecidableEq, Repr

def ObservabilitySampleRate.shouldSampleSequence (rate : ObservabilitySampleRate)
    (sequence : Nat) : Bool :=
  if rate.basisPoints = 0 then false
  else if 10000 ≤ rate.basisPoints then true
  else sequence * 0x9E3779B97F4A7C15 % 2 ^ 64 % 10000 < rate.basisPoints

structure DataEventMeta where
  sampled : Bool := false
  sourceRecvTimeNanos : Int := 0
  recvSequence : Nat := 0
  transportRecvMonoNanos : Nat := 0
  tlsPlaintextReadyMonoNanos : Nat := 0
  wsPayloadReadyMonoNanos : Nat := 0
  messageSequence : Nat := 0
  tlsPlaintextChunkIndex : Nat := 0
  chunkMessageIndex : Nat := 0
  chunkPriorSinkServiceNanos : Nat := 0
  deriving DecidableEq, Repr

namespace DataEventMeta

def recvObservedNow (clock : Clock) (recvSequence : Nat) (sampled : Bool) :
    DataEventMeta × Clock :=
  if sampled then
    let (unix, clock) := clock.unixEpochNanosNow
    let (mono, clock) := clock.monotonicNanosNow
    ({ sampled, sourceRecvTimeNanos := unix, recvSequence, transportRecvMonoNanos := mono }, clock)
  else ({ sampled, recvSequence }, clock)

def plaintextReadyAt (stamp : DataEventMeta) (monoNanos chunkIndex : Nat) : DataEventMeta :=
  { stamp with
    tlsPlaintextReadyMonoNanos := if stamp.sampled then monoNanos else 0
    tlsPlaintextChunkIndex := chunkIndex
    chunkMessageIndex := 0
    chunkPriorSinkServiceNanos := 0 }

def plaintextReadyNow (stamp : DataEventMeta) (clock : Clock) (chunkIndex : Nat) :
    DataEventMeta × Clock :=
  if stamp.sampled then
    let (mono, clock) := clock.monotonicNanosNow
    (stamp.plaintextReadyAt mono chunkIndex, clock)
  else (stamp.plaintextReadyAt 0 chunkIndex, clock)

def wsPayloadReadyNow (stamp : DataEventMeta) (clock : Clock)
    (chunkMessageIndex messageSequence : Nat) : DataEventMeta × Clock :=
  if stamp.sampled then
    let (mono, clock) := clock.monotonicNanosNow
    ({ stamp with wsPayloadReadyMonoNanos := mono, messageSequence, chunkMessageIndex }, clock)
  else ({ stamp with wsPayloadReadyMonoNanos := 0, messageSequence, chunkMessageIndex }, clock)

def withChunkPriorSinkServiceNanos (stamp : DataEventMeta) (nanos : Nat) : DataEventMeta :=
  { stamp with chunkPriorSinkServiceNanos := if stamp.sampled then nanos else 0 }

/-! ### Latencies -/

def recvToPlaintextNanos (stamp : DataEventMeta) : Option Nat :=
  if !stamp.sampled then none
  else checkedSub stamp.tlsPlaintextReadyMonoNanos stamp.transportRecvMonoNanos

def plaintextToWsNanos (stamp : DataEventMeta) : Option Nat :=
  if !stamp.sampled then none
  else checkedSub stamp.wsPayloadReadyMonoNanos stamp.tlsPlaintextReadyMonoNanos

def recvToWsNanos (stamp : DataEventMeta) : Option Nat :=
  if !stamp.sampled then none
  else checkedSub stamp.wsPayloadReadyMonoNanos stamp.transportRecvMonoNanos

/-- The method; the field has the same name in the source. -/
def chunkPriorSinkServiceNanos? (stamp : DataEventMeta) : Option Nat :=
  if stamp.sampled then some stamp.chunkPriorSinkServiceNanos else none

def plaintextToWsExcludingPriorSinkNanos (stamp : DataEventMeta) : Option Nat := do
  let nanos ← stamp.plaintextToWsNanos
  checkedSub nanos (← stamp.chunkPriorSinkServiceNanos?)

def recvToWsExcludingPriorSinkNanos (stamp : DataEventMeta) : Option Nat := do
  let nanos ← stamp.recvToWsNanos
  checkedSub nanos (← stamp.chunkPriorSinkServiceNanos?)

end DataEventMeta

/-- A data message with its metadata. -/
structure MarkedDataEvent where
  event : DataEvent
  eventMeta : DataEventMeta
  deriving DecidableEq, Repr

/-- Most events in one batch, marked or not. -/
def dataEventBatchCapacity : Nat := 32

/-- `DataEventBatch` and `MarkedDataEventBatch`. -/
structure EventBatch (ε : Type) where
  events : List ε
  chunkEnd : Bool
  deriving DecidableEq, Repr

namespace EventBatch

variable {ε : Type}

def empty : EventBatch ε := ⟨[], false⟩

def isFull (batch : EventBatch ε) : Bool := batch.events.length == dataEventBatchCapacity

/-- A full batch refuses the event. -/
def push (batch : EventBatch ε) (event : ε) : EventBatch ε :=
  if batch.isFull then batch else { batch with events := batch.events ++ [event] }

def single (event : ε) : EventBatch ε := { (empty.push event) with chunkEnd := true }

def isChunkEnd (batch : EventBatch ε) : Bool := batch.chunkEnd

theorem isFull_iff (batch : EventBatch ε) :
    batch.isFull = true ↔ batch.events.length = dataEventBatchCapacity := by
  simp [isFull]

theorem length_push {batch : EventBatch ε} (room : ¬ batch.isFull = true) (event : ε) :
    (batch.push event).events.length = batch.events.length + 1 := by
  simp [push, room]

@[simp] theorem length_push_empty (event : ε) : (empty.push event).events.length = 1 := rfl

theorem nonempty_of_isFull {batch : EventBatch ε} (full : batch.isFull = true) :
    batch.events ≠ [] := by
  intro none
  have length := batch.isFull_iff.mp full
  simp [none, dataEventBatchCapacity] at length

end EventBatch

abbrev DataEventBatch := EventBatch DataEvent

abbrev MarkedDataEventBatch := EventBatch MarkedDataEvent

end Talaris
