import Talaris.Observability

/-!
# Latency histograms

A message of a sampled receive is recorded once in every latency stage that its metadata can
answer for: in the histogram of all messages and in that of its place in the chunk, first or
queued behind others.  Everything is kept twice, over the life of the connection and since the
last export.  The histograms themselves come from a crate outside the repository and are a
parameter.
-/

namespace Talaris

open Talaris.Ws

/-- What is used of `hdrhistogram::Histogram<u64>`. -/
class HdrHistogram where
  Histogram : Type
  /-- `new_with_bounds` -/
  newWithBounds : (lowest highest sigfig : Nat) → Except String Histogram
  saturatingRecord : Histogram → Nat → Histogram
  reset : Histogram → Histogram
  len : Histogram → Nat

/-- A recorded value is one more sample, whatever it is; the count is a `u64` and saturates. -/
structure HdrHistogram.CountsSamples [HdrHistogram] : Prop where
  bounded : ∀ hist : HdrHistogram.Histogram, HdrHistogram.len hist ≤ u64Max
  record : ∀ (hist : HdrHistogram.Histogram) (value : Nat),
    HdrHistogram.len (HdrHistogram.saturatingRecord hist value) =
      saturatingAdd64 (HdrHistogram.len hist) 1

def latencyHistogramLowestNs : Nat := 1

def latencyHistogramHighestNs : Nat := 60000000000

def latencyHistogramSigfig : Nat := 3

structure StageHistogram [HdrHistogram] where
  hist : HdrHistogram.Histogram
  totalNanos : Nat

variable [HdrHistogram]

namespace StageHistogram

def new : Except String StageHistogram :=
  match HdrHistogram.newWithBounds latencyHistogramLowestNs latencyHistogramHighestNs
      latencyHistogramSigfig with
  | .error e => .error e
  | .ok hist => .ok ⟨hist, 0⟩

def record (stage : StageHistogram) (nanos : Nat) : StageHistogram :=
  ⟨HdrHistogram.saturatingRecord stage.hist (max nanos 1), min (stage.totalNanos + nanos) u64Max⟩

def reset (stage : StageHistogram) : StageHistogram := ⟨HdrHistogram.reset stage.hist, 0⟩

/-- `hist.len()`, the number of samples that is exported. -/
def samples (stage : StageHistogram) : Nat := HdrHistogram.len stage.hist

/-- One value was recorded and nothing else happened. -/
def AddsSample (before after : StageHistogram) : Prop := ∃ nanos, after = before.record nanos

theorem AddsSample.samples (counts : HdrHistogram.CountsSamples) {before after : StageHistogram}
    (adds : AddsSample before after) : after.samples = saturatingAdd64 before.samples 1 := by
  obtain ⟨nanos, rfl⟩ := adds
  exact counts.record before.hist (max nanos 1)

end StageHistogram

inductive MessageChunkPosition where
  | first
  | queued
  deriving DecidableEq, Repr

def MessageChunkPosition.fromMeta (stamp : DataEventMeta) : MessageChunkPosition :=
  if stamp.chunkMessageIndex = 0 then first else queued

/-- The three histograms of a message stage: the fields `*_all`, `*_first` and `*_queued`. -/
structure PositionHistograms where
  all : StageHistogram
  first : StageHistogram
  queued : StageHistogram

namespace PositionHistograms

def new : Except String PositionHistograms := do
  return ⟨← StageHistogram.new, ← StageHistogram.new, ← StageHistogram.new⟩

/-- Nothing is recorded without a value. -/
def record (stage : PositionHistograms) (position : MessageChunkPosition) (nanos : Option Nat) :
    PositionHistograms :=
  match nanos with
  | none => stage
  | some nanos =>
      let stage := { stage with all := stage.all.record nanos }
      match position with
      | .first => { stage with first := stage.first.record nanos }
      | .queued => { stage with queued := stage.queued.record nanos }

def reset (stage : PositionHistograms) : PositionHistograms :=
  ⟨stage.all.reset, stage.first.reset, stage.queued.reset⟩

/-- One sample more in the histogram of all messages, and one in that of a position. -/
structure AddsOne (position : MessageChunkPosition) (before after : PositionHistograms) :
    Prop where
  all : before.all.AddsSample after.all
  first : if position = .first then before.first.AddsSample after.first
    else after.first = before.first
  queued : if position = .queued then before.queued.AddsSample after.queued
    else after.queued = before.queued

theorem record_addsOne (stage : PositionHistograms) (position : MessageChunkPosition)
    (nanos : Nat) : AddsOne position stage (stage.record position (some nanos)) := by
  cases position with
  | first => exact ⟨⟨nanos, rfl⟩, ⟨nanos, rfl⟩, rfl⟩
  | queued => exact ⟨⟨nanos, rfl⟩, rfl, ⟨nanos, rfl⟩⟩

end PositionHistograms

structure LatencyHistogramSet where
  recvToPlaintext : StageHistogram
  plaintextToWs : PositionHistograms
  plaintextToWsExcludingPriorSink : PositionHistograms
  recvToWs : PositionHistograms
  recvToWsExcludingPriorSink : PositionHistograms
  chunkPriorSinkServiceQueued : StageHistogram

namespace LatencyHistogramSet

def new : Except String LatencyHistogramSet := do
  return ⟨← StageHistogram.new, ← PositionHistograms.new, ← PositionHistograms.new,
    ← PositionHistograms.new, ← PositionHistograms.new, ← StageHistogram.new⟩

def recordPlaintextChunk (set : LatencyHistogramSet) (stamp : DataEventMeta) :
    LatencyHistogramSet :=
  match stamp.recvToPlaintextNanos with
  | none => set
  | some nanos => { set with recvToPlaintext := set.recvToPlaintext.record nanos }

def recordMessage (set : LatencyHistogramSet) (stamp : DataEventMeta) : LatencyHistogramSet :=
  let position := MessageChunkPosition.fromMeta stamp
  { set with
    plaintextToWs := set.plaintextToWs.record position stamp.plaintextToWsNanos
    plaintextToWsExcludingPriorSink :=
      set.plaintextToWsExcludingPriorSink.record position
        stamp.plaintextToWsExcludingPriorSinkNanos
    recvToWs := set.recvToWs.record position stamp.recvToWsNanos
    recvToWsExcludingPriorSink :=
      set.recvToWsExcludingPriorSink.record position stamp.recvToWsExcludingPriorSinkNanos
    chunkPriorSinkServiceQueued :=
      match position, stamp.chunkPriorSinkServiceNanos? with
      | .queued, some nanos => set.chunkPriorSinkServiceQueued.record nanos
      | .queued, none | .first, _ => set.chunkPriorSinkServiceQueued }

def reset (set : LatencyHistogramSet) : LatencyHistogramSet :=
  ⟨set.recvToPlaintext.reset, set.plaintextToWs.reset, set.plaintextToWsExcludingPriorSink.reset,
    set.recvToWs.reset, set.recvToWsExcludingPriorSink.reset,
    set.chunkPriorSinkServiceQueued.reset⟩

end LatencyHistogramSet

/-! ### The four message stages -/

inductive MessageStage where
  | plaintextToWs
  | plaintextToWsExcludingPriorSink
  | recvToWs
  | recvToWsExcludingPriorSink
  deriving DecidableEq, Repr

namespace MessageStage

/-- Its histograms. -/
def histograms : MessageStage → LatencyHistogramSet → PositionHistograms
  | plaintextToWs => LatencyHistogramSet.plaintextToWs
  | plaintextToWsExcludingPriorSink => LatencyHistogramSet.plaintextToWsExcludingPriorSink
  | recvToWs => LatencyHistogramSet.recvToWs
  | recvToWsExcludingPriorSink => LatencyHistogramSet.recvToWsExcludingPriorSink

/-- What it measures of a message. -/
def nanos : MessageStage → DataEventMeta → Option Nat
  | plaintextToWs => DataEventMeta.plaintextToWsNanos
  | plaintextToWsExcludingPriorSink => DataEventMeta.plaintextToWsExcludingPriorSinkNanos
  | recvToWs => DataEventMeta.recvToWsNanos
  | recvToWsExcludingPriorSink => DataEventMeta.recvToWsExcludingPriorSinkNanos

theorem histograms_recordMessage (stage : MessageStage) (set : LatencyHistogramSet)
    (stamp : DataEventMeta) :
    stage.histograms (set.recordMessage stamp) =
      (stage.histograms set).record (MessageChunkPosition.fromMeta stamp) (stage.nanos stamp) := by
  cases stage <;> rfl

theorem histograms_recordPlaintextChunk (stage : MessageStage) (set : LatencyHistogramSet)
    (stamp : DataEventMeta) :
    stage.histograms (set.recordPlaintextChunk stamp) = stage.histograms set := by
  unfold LatencyHistogramSet.recordPlaintextChunk
  cases stamp.recvToPlaintextNanos <;> cases stage <;> rfl

omit [HdrHistogram] in
/-- Nothing is measured outside the sample. -/
theorem nanos_unsampled (stage : MessageStage) {stamp : DataEventMeta}
    (unsampled : stamp.sampled = false) : stage.nanos stamp = none := by
  have plaintextToWs : stamp.plaintextToWsNanos = none := by
    simp [DataEventMeta.plaintextToWsNanos, unsampled]
  have recvToWs : stamp.recvToWsNanos = none := by
    simp [DataEventMeta.recvToWsNanos, unsampled]
  cases stage with
  | plaintextToWs => exact plaintextToWs
  | recvToWs => exact recvToWs
  | plaintextToWsExcludingPriorSink =>
      simp [nanos, DataEventMeta.plaintextToWsExcludingPriorSinkNanos, plaintextToWs]
  | recvToWsExcludingPriorSink =>
      simp [nanos, DataEventMeta.recvToWsExcludingPriorSinkNanos, recvToWs]

end MessageStage

structure LatencyHistograms where
  cumulative : LatencyHistogramSet
  interval : LatencyHistogramSet

namespace LatencyHistograms

def new : Except String LatencyHistograms := do
  return ⟨← LatencyHistogramSet.new, ← LatencyHistogramSet.new⟩

def recordPlaintextChunk (histograms : LatencyHistograms) (stamp : DataEventMeta) :
    LatencyHistograms :=
  ⟨histograms.cumulative.recordPlaintextChunk stamp, histograms.interval.recordPlaintextChunk stamp⟩

def recordMessage (histograms : LatencyHistograms) (stamp : DataEventMeta) : LatencyHistograms :=
  ⟨histograms.cumulative.recordMessage stamp, histograms.interval.recordMessage stamp⟩

/-- What an export of the interval leaves behind. -/
def resetInterval (histograms : LatencyHistograms) : LatencyHistograms :=
  { histograms with interval := histograms.interval.reset }

end LatencyHistograms

/-! ## Metadata that answers every question -/

/-- Every latency of a message has a value, and this is what the earlier sink calls took. -/
structure DataEventMeta.Attributed (stamp : DataEventMeta) (prior : Nat) : Prop where
  recvToPlaintext : ∃ nanos, stamp.recvToPlaintextNanos = some nanos
  plaintextToWs : ∃ nanos, stamp.plaintextToWsNanos = some nanos
  recvToWs : ∃ nanos, stamp.recvToWsNanos = some nanos
  priorSinkService : stamp.chunkPriorSinkServiceNanos? = some prior
  plaintextToWsExcluding : ∃ nanos, stamp.plaintextToWsExcludingPriorSinkNanos = some nanos
  recvToWsExcluding : ∃ nanos, stamp.recvToWsExcludingPriorSinkNanos = some nanos

omit [HdrHistogram] in
/-- It is enough that the clock readings are in order, with room for the earlier sink calls. -/
theorem DataEventMeta.attributed {stamp : DataEventMeta} (sampled : stamp.sampled = true)
    (received : stamp.transportRecvMonoNanos ≤ stamp.tlsPlaintextReadyMonoNanos)
    (room : stamp.tlsPlaintextReadyMonoNanos + stamp.chunkPriorSinkServiceNanos ≤
      stamp.wsPayloadReadyMonoNanos) :
    stamp.Attributed stamp.chunkPriorSinkServiceNanos := by
  have recvToPlaintext : stamp.recvToPlaintextNanos =
      some (stamp.tlsPlaintextReadyMonoNanos - stamp.transportRecvMonoNanos) := by
    simp [recvToPlaintextNanos, sampled, checkedSub, received]
  have plaintextToWs : stamp.plaintextToWsNanos =
      some (stamp.wsPayloadReadyMonoNanos - stamp.tlsPlaintextReadyMonoNanos) := by
    have order : stamp.tlsPlaintextReadyMonoNanos ≤ stamp.wsPayloadReadyMonoNanos := by omega
    simp [plaintextToWsNanos, sampled, checkedSub, order]
  have recvToWs : stamp.recvToWsNanos =
      some (stamp.wsPayloadReadyMonoNanos - stamp.transportRecvMonoNanos) := by
    have order : stamp.transportRecvMonoNanos ≤ stamp.wsPayloadReadyMonoNanos := by omega
    simp [recvToWsNanos, sampled, checkedSub, order]
  have prior : stamp.chunkPriorSinkServiceNanos? = some stamp.chunkPriorSinkServiceNanos := by
    simp [chunkPriorSinkServiceNanos?, sampled]
  refine ⟨⟨_, recvToPlaintext⟩, ⟨_, plaintextToWs⟩, ⟨_, recvToWs⟩, prior,
    ⟨stamp.wsPayloadReadyMonoNanos - stamp.tlsPlaintextReadyMonoNanos -
      stamp.chunkPriorSinkServiceNanos, ?_⟩,
    ⟨stamp.wsPayloadReadyMonoNanos - stamp.transportRecvMonoNanos -
      stamp.chunkPriorSinkServiceNanos, ?_⟩⟩
  · rw [plaintextToWsExcludingPriorSinkNanos, plaintextToWs, prior]
    exact if_pos (by omega)
  · rw [recvToWsExcludingPriorSinkNanos, recvToWs, prior]
    exact if_pos (by omega)

omit [HdrHistogram] in
theorem DataEventMeta.Attributed.nanos {stamp : DataEventMeta} {prior : Nat}
    (attributed : stamp.Attributed prior) (stage : MessageStage) :
    ∃ nanos, stage.nanos stamp = some nanos := by
  cases stage with
  | plaintextToWs => exact attributed.plaintextToWs
  | plaintextToWsExcludingPriorSink => exact attributed.plaintextToWsExcluding
  | recvToWs => exact attributed.recvToWs
  | recvToWsExcludingPriorSink => exact attributed.recvToWsExcluding

/-- Such a message is one sample in each stage. -/
theorem LatencyHistogramSet.recordMessage_addsOne {stamp : DataEventMeta} {prior : Nat}
    (attributed : stamp.Attributed prior) (set : LatencyHistogramSet) (stage : MessageStage) :
    (stage.histograms set).AddsOne (MessageChunkPosition.fromMeta stamp)
      (stage.histograms (set.recordMessage stamp)) := by
  obtain ⟨nanos, measured⟩ := attributed.nanos stage
  rw [stage.histograms_recordMessage, measured]
  exact PositionHistograms.record_addsOne _ _ nanos

end Talaris
