import Talaris.Connection.Laws
import Talaris.Ws.Latency

/-!
# Latencies of a receive

The marked handlers take every chunk of a receive through a marked drain and record every message
that the sink gets.  On a steady clock all latencies of the sampled messages have a value, so each
of these messages is one more sample in every histogram it belongs to
(`LatencyHistograms.replay_counted`).
-/

namespace Talaris

open Talaris.Ws

/-! ## Recordings -/

/-- The message that is recorded. -/
def HistogramRecord.message? : HistogramRecord → Option DataEventMeta
  | .plaintextChunk _ => none
  | .message stamp => some stamp

/-- The messages recorded. -/
def recordedMessages (records : List HistogramRecord) : List DataEventMeta :=
  records.filterMap HistogramRecord.message?

@[simp] theorem recordedMessages_append (first second : List HistogramRecord) :
    recordedMessages (first ++ second) = recordedMessages first ++ recordedMessages second := by
  simp [recordedMessages]

@[simp] theorem recordedMessages_message (stamps : List DataEventMeta) :
    recordedMessages (stamps.map .message) = stamps := by
  rw [recordedMessages, List.filterMap_map]
  exact List.filterMap_some

section Replay

variable [HdrHistogram]

namespace LatencyHistograms

def record (histograms : LatencyHistograms) : HistogramRecord → LatencyHistograms
  | .plaintextChunk stamp => histograms.recordPlaintextChunk stamp
  | .message stamp => histograms.recordMessage stamp

/-- The histograms after the recordings. -/
def replay (histograms : LatencyHistograms) (records : List HistogramRecord) :
    LatencyHistograms :=
  records.foldl record histograms

end LatencyHistograms

/-- So many samples more. -/
def StageHistogram.AddsSamples (before after : StageHistogram) (count : Nat) : Prop :=
  after.samples = saturatingAdd64 before.samples count

theorem StageHistogram.AddsSamples.refl (counts : HdrHistogram.CountsSamples)
    (stage : StageHistogram) : stage.AddsSamples stage 0 := by
  have bounded : stage.samples ≤ 2 ^ 64 - 1 := counts.bounded stage.hist
  rw [AddsSamples, saturatingAdd64, Nat.add_zero, Nat.min_eq_left bounded]

theorem StageHistogram.AddsSamples.trans {first second third : StageHistogram} {one other : Nat}
    (before : first.AddsSamples second one) (after : second.AddsSamples third other) :
    first.AddsSamples third (one + other) := by
  unfold AddsSamples saturatingAdd64 at *
  omega

/-- Every message is one more sample in the histogram of all messages, and in that of its
position. -/
structure PositionHistograms.Counted (before after : PositionHistograms)
    (stamps : List DataEventMeta) : Prop where
  all : before.all.AddsSamples after.all stamps.length
  first : before.first.AddsSamples after.first
    (stamps.countP (MessageChunkPosition.fromMeta · = .first))
  queued : before.queued.AddsSamples after.queued
    (stamps.countP (MessageChunkPosition.fromMeta · = .queued))

namespace PositionHistograms

theorem Counted.refl (counts : HdrHistogram.CountsSamples) (stage : PositionHistograms) :
    stage.Counted stage [] :=
  ⟨.refl counts _, .refl counts _, .refl counts _⟩

theorem Counted.trans {first second third : PositionHistograms} {one other : List DataEventMeta}
    (before : first.Counted second one) (after : second.Counted third other) :
    first.Counted third (one ++ other) where
  all := by
    rw [List.length_append]
    exact before.all.trans after.all
  first := by
    rw [List.countP_append]
    exact before.first.trans after.first
  queued := by
    rw [List.countP_append]
    exact before.queued.trans after.queued

theorem AddsOne.counted (counts : HdrHistogram.CountsSamples) {before after : PositionHistograms}
    {stamp : DataEventMeta}
    (adds : before.AddsOne (MessageChunkPosition.fromMeta stamp) after) :
    before.Counted after [stamp] := by
  have one {earlier later : StageHistogram} (sample : earlier.AddsSample later) :
      earlier.AddsSamples later 1 := sample.samples counts
  obtain ⟨all, first, queued⟩ := adds
  refine ⟨one all, ?_, ?_⟩
  · rw [List.countP_singleton]
    split at first
    next position =>
      rw [if_pos (by simpa using position)]
      exact one first
    next position =>
      rw [if_neg (by simpa using position), first]
      exact .refl counts _
  · rw [List.countP_singleton]
    split at queued
    next position =>
      rw [if_pos (by simpa using position)]
      exact one queued
    next position =>
      rw [if_neg (by simpa using position), queued]
      exact .refl counts _

end PositionHistograms

/-- A recording counts the message, if it is sampled. -/
theorem LatencyHistogramSet.recordMessage_counted (counts : HdrHistogram.CountsSamples)
    {stamp : DataEventMeta}
    (attributed : stamp.sampled = true → ∃ prior, stamp.Attributed prior)
    (set : LatencyHistogramSet) (stage : MessageStage) :
    (stage.histograms set).Counted (stage.histograms (set.recordMessage stamp))
      ([stamp].filter DataEventMeta.sampled) := by
  cases sampled : stamp.sampled with
  | true =>
      obtain ⟨prior, values⟩ := attributed sampled
      rw [List.filter_cons_of_pos sampled, List.filter_nil]
      exact (set.recordMessage_addsOne values stage).counted counts
  | false =>
      rw [stage.histograms_recordMessage, stage.nanos_unsampled sampled,
        List.filter_cons_of_neg (by simp [sampled]), List.filter_nil]
      exact .refl counts _

/-- Both sets count the sampled messages of the recordings. -/
theorem LatencyHistograms.replay_counted (counts : HdrHistogram.CountsSamples)
    (records : List HistogramRecord)
    (attributed : ∀ stamp ∈ recordedMessages records, stamp.sampled = true →
      ∃ prior, stamp.Attributed prior)
    (histograms : LatencyHistograms) (stage : MessageStage) :
    (stage.histograms histograms.cumulative).Counted
        (stage.histograms (histograms.replay records).cumulative)
        ((recordedMessages records).filter DataEventMeta.sampled) ∧
      (stage.histograms histograms.interval).Counted
        (stage.histograms (histograms.replay records).interval)
        ((recordedMessages records).filter DataEventMeta.sampled) := by
  induction records generalizing histograms with
  | nil => exact ⟨.refl counts _, .refl counts _⟩
  | cons recording records ih =>
      cases recording with
      | plaintextChunk stamp =>
          have later := ih attributed (histograms.recordPlaintextChunk stamp)
          simp only [recordPlaintextChunk, stage.histograms_recordPlaintextChunk] at later
          exact later
      | message stamp =>
          have here := attributed stamp (List.mem_cons_self ..)
          have later := ih (fun other member => attributed other (List.mem_cons_of_mem _ member))
            (histograms.recordMessage stamp)
          have split : (recordedMessages (.message stamp :: records)).filter DataEventMeta.sampled =
              [stamp].filter DataEventMeta.sampled ++
                (recordedMessages records).filter DataEventMeta.sampled :=
            List.filter_append [stamp] (recordedMessages records)
          rw [split]
          exact ⟨(histograms.cumulative.recordMessage_counted counts here stage).trans later.1,
            (histograms.interval.recordMessage_counted counts here stage).trans later.2⟩

end Replay

/-! ## The chunks of a receive -/

/-- The sink calls for a chunk, and the clock when its drain started. -/
structure ChunkCalls where
  start : Clock
  calls : List SinkItem

/-- Each sampled message has all latencies, with what the earlier sink calls for the chunk took. -/
def ChunkCalls.Attributed (chunk : ChunkCalls) : Prop :=
  ∀ (j : Nat) (item : SinkItem), chunk.calls[j]? = some item →
    ∀ stamp ∈ item.stamps, stamp.sampled = true →
      stamp.Attributed ((services chunk.start (chunk.calls.map SinkItem.stamps)).take j).sum

/-- What became of a reader after these sink calls: the clock has gone on and every message was
recorded once. -/
structure Reader.Accounts (before after : Reader) (out : List SinkItem) : Prop where
  clock : before.clock.Before after.clock
  recorded : ∃ records,
    after.observabilityHistograms = before.observabilityHistograms.map (· ++ records) ∧
      recordedMessages records = out.flatMap SinkItem.stamps
  attributed : ∃ chunks : List ChunkCalls,
    out = chunks.flatMap ChunkCalls.calls ∧ ∀ chunk ∈ chunks, chunk.Attributed

namespace Reader.Accounts

variable {first second third : Reader}

theorem unmoved (clock : first.clock.Before second.clock)
    (same : second.observabilityHistograms = first.observabilityHistograms) :
    first.Accounts second [] where
  clock := clock
  recorded := ⟨[], by rw [same]; simp, rfl⟩
  attributed := ⟨[], rfl, by simp⟩

theorem refl (reader : Reader) : reader.Accounts reader [] := unmoved (.refl _) rfl

theorem trans {out more : List SinkItem} (before : first.Accounts second out)
    (after : second.Accounts third more) : first.Accounts third (out ++ more) := by
  obtain ⟨records, same, messages⟩ := before.recorded
  obtain ⟨records', same', messages'⟩ := after.recorded
  obtain ⟨chunks, calls, attributed⟩ := before.attributed
  obtain ⟨chunks', calls', attributed'⟩ := after.attributed
  constructor
  case clock => exact before.clock.trans after.clock
  case recorded =>
    refine ⟨records ++ records', ?_, by simp [messages, messages']⟩
    rw [same', same, Option.map_map]
    congr 1
    funext earlier
    exact List.append_assoc earlier records records'
  case attributed =>
    refine ⟨chunks ++ chunks', by simp [calls, calls'], ?_⟩
    intro chunk member
    exact (List.mem_append.mp member).elim (attributed chunk) (attributed' chunk)

/-- Only the clock and the recordings count. -/
theorem congr {out : List SinkItem} (accounts : first.Accounts second out)
    (clock : third.clock = second.clock)
    (same : third.observabilityHistograms = second.observabilityHistograms) :
    first.Accounts third out := by
  have still : second.clock.Before third.clock := by
    rw [clock]
    exact .refl _
  have moved := accounts.trans (unmoved still same)
  rwa [List.append_nil] at moved

end Reader.Accounts

theorem PumpKind.drain_attributed [AcceptDigest] {pump : PumpKind} (isMarked : pump.isMarked = true)
    (ws : WsClient) (chunk : Bytes) {base : DataEventMeta} {clock : Clock} (sequence : Nat)
    (steady : Monotone clock.mono) (ready : base.Ready clock) :
    clock.Before (pump.drain ws chunk base clock sequence).clock ∧
      ChunkCalls.Attributed ⟨clock, (pump.drain ws chunk base clock sequence).out⟩ := by
  have attributed {calls : List (List DataEventMeta)} {marked : MarkedState} {out : List SinkItem}
      (clocked : Clocked clock base calls [] marked) (same : out.map SinkItem.stamps = calls) :
      ChunkCalls.Attributed ⟨clock, out⟩ := by
    intro j item found stamp member sampled
    have called : calls[j]? = some item.stamps := by
      rw [← same, List.getElem?_map, found, Option.map_some]
    have present : stamp ∈ calls.flatten :=
      List.mem_flatten_of_mem (List.mem_of_getElem? called) member
    have whole := clocked.sampled stamp (List.mem_append_left [] present)
    have baseSampled : base.sampled = true := whole.symm.trans sampled
    rw [same]
    exact clocked.attributed baseSampled (ready.received baseSampled) called member
  cases pump with
  | events | data | dataBatches => simp [PumpKind.isMarked] at isMarked
  | dataMarked =>
      have clocked := markedCalls_clocked ws steady ready (.ingressEvents chunk sequence)
      refine ⟨clocked.clock, attributed clocked ?_⟩
      exact List.map_map
  | dataMarkedBatches =>
      have clocked := markedCalls_clocked ws steady ready (.ingressBatches chunk sequence)
      refine ⟨clocked.clock, attributed clocked ?_⟩
      exact List.map_map

/-- The reader has gone on and its sink calls were added to the tally. -/
def Reading.Accounts (first next : Reading) : Prop :=
  ∃ out, next.out = first.out ++ out ∧ first.toReader.Accounts next.toReader out

namespace Reading

theorem Accounts.refl (reading : Reading) : reading.Accounts reading :=
  ⟨[], by simp, .refl reading.toReader⟩

theorem Accounts.trans {first second third : Reading} (before : first.Accounts second)
    (after : second.Accounts third) : first.Accounts third := by
  obtain ⟨out, delivered, accounts⟩ := before
  obtain ⟨more, delivered', accounts'⟩ := after
  exact ⟨out ++ more, by rw [delivered', delivered, List.append_assoc], accounts.trans accounts'⟩

theorem Accounts.clock {first next : Reading} (accounts : first.Accounts next) :
    first.clock.Before next.clock := by
  obtain ⟨out, -, account⟩ := accounts
  exact account.clock

theorem baseStamp_chunk (reading : Reading) (source : ChunkSource) (recvMeta : DataEventMeta) :
    DataEventMeta.Chunk recvMeta reading.clock (reading.baseStamp source recvMeta).1
      (reading.baseStamp source recvMeta).2 := by
  cases source with
  | tls => exact .now reading.chunkIndex
  | plain => exact .onReceipt reading.chunkIndex

section Marked

variable [AcceptDigest] {pump : PumpKind} {recvMeta : DataEventMeta}

theorem take_accounts (isMarked : pump.isMarked = true) (source : ChunkSource) (reading : Reading)
    (steady : Monotone reading.clock.mono) (observed : recvMeta.Observed reading.clock)
    (chunk : Bytes) : reading.Accounts (reading.take pump source recvMeta chunk) := by
  unfold take
  split
  next => exact .refl reading
  next =>
    have based := reading.baseStamp_chunk source recvMeta
    generalize reading.baseStamp source recvMeta = stamped at based ⊢
    obtain ⟨base, start⟩ := stamped
    have steadily : Monotone start.mono := by
      rw [based.before.mono]
      exact steady
    obtain ⟨before, attributed⟩ := PumpKind.drain_attributed isMarked reading.ws chunk
      reading.markedMessageSequence steadily (based.ready observed steady)
    dsimp only at before attributed ⊢
    generalize pump.drain reading.ws chunk base start reading.markedMessageSequence = drained
      at before attributed ⊢
    refine ⟨drained.out, rfl, based.before.trans before, ?_, ⟨[⟨start, drained.out⟩], ?_, ?_⟩⟩
    · refine ⟨(drained.out.flatMap SinkItem.stamps).map .message ++
        if (drained.out.flatMap SinkItem.messages).isEmpty then [] else [.plaintextChunk base],
        ?_, ?_⟩
      · dsimp only
        congr 1
        funext earlier
        exact List.append_assoc ..
      · rw [recordedMessages_append, recordedMessages_message]
        split
        next => exact List.append_nil _
        next => exact List.append_nil _
    · simp
    · intro only member
      rw [List.mem_singleton] at member
      rw [member]
      exact attributed

theorem takeAll_accounts (isMarked : pump.isMarked = true) (source : ChunkSource)
    (reading : Reading) (steady : Monotone reading.clock.mono)
    (observed : recvMeta.Observed reading.clock) (chunks : List Bytes) :
    reading.Accounts (reading.takeAll pump source recvMeta chunks) := by
  unfold takeAll
  induction chunks generalizing reading with
  | nil => exact .refl reading
  | cons chunk chunks ih =>
      have first := take_accounts isMarked source reading steady observed chunk
      have steadily : Monotone (reading.take pump source recvMeta chunk).clock.mono := by
        rw [first.clock.mono]
        exact steady
      exact first.trans (ih _ steadily (observed.later first.clock steady))

end Marked

end Reading

/-! ## The handlers -/

namespace ConnectionState

variable [Rustls] [AcceptDigest]

/-- The sink calls of a handler are accounted for. -/
def Accounts (conn : ConnectionState) (handled : Handled) : Prop :=
  conn.toReader.Accounts handled.conn.toReader handled.out

variable {pump : PumpKind} {recvMeta : DataEventMeta}

theorem recvPlain_accounts (isMarked : pump.isMarked = true) {conn : ConnectionState}
    (steady : Monotone conn.clock.mono) (observed : recvMeta.Observed conn.clock)
    (slices : List (Nat × Bytes)) (n : Nat) :
    conn.Accounts (conn.recvPlain pump recvMeta slices n) := by
  obtain ⟨out, delivered, accounts⟩ := Reading.takeAll_accounts isMarked .plain
    (Reading.start conn.toReader) steady observed (slices.map Prod.snd)
  have whole : conn.toReader.Accounts _ _ := accounts
  rw [← List.nil_append out, ← show (Reading.start conn.toReader).out = [] from rfl,
    ← delivered] at whole
  unfold recvPlain
  dsimp only
  split
  next => exact whole
  next => exact whole

/-- A TLS reading under way. -/
theorem TlsReading.ingest_accounts (isMarked : pump.isMarked = true) (state : TlsReading)
    (steady : Monotone state.reading.clock.mono) (observed : recvMeta.Observed state.reading.clock)
    (slices : List Bytes) :
    state.reading.Accounts (slices.foldl (TlsReading.ingest pump recvMeta) state).reading := by
  induction slices generalizing state with
  | nil => exact .refl state.reading
  | cons slice slices ih =>
      have first : state.reading.Accounts (state.ingest pump recvMeta slice).reading := by
        unfold TlsReading.ingest
        split
        next => exact .refl state.reading
        next => exact Reading.takeAll_accounts isMarked .tls state.reading steady observed _
      have steadily : Monotone (state.ingest pump recvMeta slice).reading.clock.mono := by
        rw [first.clock.mono]
        exact steady
      exact first.trans (ih _ steadily (observed.later first.clock steady))

omit [AcceptDigest] in
/-- The handshakes leave the clock and the recordings alone. -/
theorem afterTlsHandshake_keeps (conn : ConnectionState) (tls : TlsAdapter) :
    (conn.afterTlsHandshake tls).1.clock = conn.clock ∧
      (conn.afterTlsHandshake tls).1.observabilityHistograms = conn.observabilityHistograms := by
  unfold afterTlsHandshake beginWsHandshake
  repeat' split
  all_goals exact ⟨rfl, rfl⟩

omit [AcceptDigest] in
theorem noteCloseNotify_reader (conn : ConnectionState) (tls : TlsAdapter) :
    (conn.noteCloseNotify tls).toReader = conn.toReader := by
  unfold noteCloseNotify
  split <;> rfl

theorem recvTls_accounts (isMarked : pump.isMarked = true) {conn : ConnectionState}
    (steady : Monotone conn.clock.mono) (observed : recvMeta.Observed conn.clock)
    (tls : TlsAdapter) (slices : List (Nat × Bytes)) :
    conn.Accounts (conn.recvTls pump recvMeta tls slices) := by
  obtain ⟨out, delivered, accounts⟩ := TlsReading.ingest_accounts isMarked
    ⟨tls, conn.tlsPendingOut, Reading.start conn.toReader, none⟩ steady observed
    (slices.map Prod.snd)
  unfold recvTls
  dsimp only
  generalize (slices.map Prod.snd).foldl (TlsReading.ingest pump recvMeta)
    ⟨tls, conn.tlsPendingOut, Reading.start conn.toReader, none⟩ = ingested at delivered accounts ⊢
  have whole : conn.toReader.Accounts ingested.reading.toReader ingested.reading.out := by
    rw [delivered]
    exact accounts
  split
  next => exact whole
  next =>
    generalize hinted : (if (!pump.isData) = true ∧ ingested.reading.plaintextChunks ≠ 0 then
      { ({ conn with
            toReader := ingested.reading.toReader, tls := some ingested.tls,
            tlsPendingOut := ingested.pendingOut } : ConnectionState).recycle
          (slices.map Prod.fst) with wsIngress := .dirty }
      else ({ conn with
            toReader := ingested.reading.toReader, tls := some ingested.tls,
            tlsPendingOut := ingested.pendingOut } : ConnectionState).recycle
          (slices.map Prod.fst)) = conn₂
    have same : conn₂.toReader = ingested.reading.toReader := by
      rw [← hinted]
      split <;> rfl
    obtain ⟨clock, records⟩ := conn₂.afterTlsHandshake_keeps ingested.tls
    rw [same] at clock records
    split
    next conn₃ e shaken =>
      rw [shaken] at clock records
      exact whole.congr clock records
    next conn₃ shaken =>
      rw [shaken] at clock records
      have closing := conn₃.noteCloseNotify_reader ingested.tls
      have accounted : conn.toReader.Accounts (conn₃.noteCloseNotify ingested.tls).toReader
          ingested.reading.out := by
        rw [closing]
        exact whole.congr clock records
      split <;> exact accounted

omit [AcceptDigest] in
theorem observeRecv_observed (isMarked : pump.isMarked = true) {conn : ConnectionState}
    (steady : Monotone conn.clock.mono) :
    (conn.observeRecv pump).1.Observed (conn.observeRecv pump).2.clock ∧
      conn.toReader.Accounts (conn.observeRecv pump).2.toReader [] := by
  unfold observeRecv
  rw [if_pos isMarked]
  exact ⟨DataEventMeta.recvObservedNow_observed steady _ _,
    .unmoved (DataEventMeta.recvObservedNow_before _ _ _) rfl⟩

theorem recvBytes_accounts (isMarked : pump.isMarked = true) (conn : ConnectionState)
    (steady : Monotone conn.clock.mono) (c : Completion) (bid n : Nat) :
    conn.Accounts (conn.recvBytes pump c bid n) := by
  obtain ⟨observed, accounts⟩ := observeRecv_observed isMarked steady
  unfold recvBytes
  dsimp only
  generalize (conn.observeRecv pump).1 = recvMeta at observed ⊢
  generalize (conn.observeRecv pump).2 = conn₁ at observed accounts ⊢
  have steadily : Monotone (conn₁.recordRecvData n).clock.mono := by
    have same := accounts.clock.mono
    rw [show (conn₁.recordRecvData n).clock.mono = conn.clock.mono from same]
    exact steady
  split
  next => exact accounts
  next ring present =>
    split
    next => exact accounts
    next slices cut =>
      split
      next tls secured =>
        exact accounts.trans (recvTls_accounts isMarked steadily observed tls slices)
      next => exact accounts.trans (recvPlain_accounts isMarked steadily observed slices n)

theorem onRecvCqeFor_accounts (isMarked : pump.isMarked = true) {conn : ConnectionState}
    (steady : Monotone conn.clock.mono) (c : Completion) :
    conn.Accounts (conn.onRecvCqeFor pump c) := by
  have idle : conn.toReader.Accounts conn.toReader [] := .refl _
  unfold onRecvCqeFor
  dsimp only
  split
  next => exact idle
  next => exact idle
  next => split <;> exact idle
  next => exact idle
  next => exact idle
  next => exact recvBytes_accounts isMarked (conn.disarm c) steady c _ _

/-! ### Runs -/

/-- A run has gone on and its sink calls were added to the tally. -/
def BatchRun.Accounts (first next : BatchRun) : Prop :=
  ∃ out, next.tally.out = first.tally.out ++ out ∧
    first.conn.toReader.Accounts next.conn.toReader out

namespace BatchRun

omit [AcceptDigest] in
theorem Accounts.trans {first second third : BatchRun} (before : first.Accounts second)
    (after : second.Accounts third) : first.Accounts third := by
  obtain ⟨out, delivered, accounts⟩ := before
  obtain ⟨more, delivered', accounts'⟩ := after
  exact ⟨out ++ more, by rw [delivered', delivered, List.append_assoc], accounts.trans accounts'⟩

omit [AcceptDigest] in
theorem Accounts.silent {first next : BatchRun}
    (accounts : first.conn.toReader.Accounts next.conn.toReader [])
    (tally : next.tally = first.tally) : first.Accounts next :=
  ⟨[], by rw [tally, List.append_nil], accounts⟩

theorem bytes_accounts (isMarked : pump.isMarked = true) (run : BatchRun)
    (steady : Monotone run.conn.clock.mono) (c : Completion) (bid n : Nat) :
    run.Accounts (run.bytes pump c bid n) := by
  obtain ⟨observed, accounts⟩ := observeRecv_observed isMarked steady
  unfold bytes
  dsimp only
  generalize (run.conn.observeRecv pump).1 = recvMeta at observed ⊢
  generalize (run.conn.observeRecv pump).2 = conn at observed accounts ⊢
  have steadily : Monotone conn.clock.mono := by
    rw [accounts.clock.mono]
    exact steady
  split
  next => exact .silent accounts rfl
  next =>
    obtain ⟨out, delivered, taken⟩ := Reading.take_accounts isMarked .plain
      { (conn.recordRecvData n).toReader, run.tally with chunkIndex := 0 }
      steadily observed (c.bytes 0 n)
    exact ⟨out, delivered, accounts.trans taken⟩

theorem step_accounts (isMarked : pump.isMarked = true) {run : BatchRun}
    (steady : Monotone run.conn.clock.mono) (c : Completion) :
    run.Accounts (run.step pump c) := by
  have idle : run.conn.toReader.Accounts run.conn.toReader [] := .refl _
  unfold step
  dsimp only
  split
  next =>
    split
    next => exact .silent idle rfl
    next =>
      split
      next => exact .silent idle rfl
      next => exact .silent idle rfl
      next => split <;> exact .silent idle rfl
  next => exact .silent idle rfl
  next => exact .silent idle rfl
  next =>
    exact bytes_accounts isMarked ⟨run.conn.disarm c, run.tally, run.firstErr⟩ steady c _ _

theorem foldl_step_accounts (isMarked : pump.isMarked = true) (completions : List Completion)
    (run : BatchRun) (steady : Monotone run.conn.clock.mono) :
    run.Accounts (completions.foldl (BatchRun.step pump) run) := by
  induction completions generalizing run with
  | nil => exact .silent (.refl _) rfl
  | cons c completions ih =>
      have first := step_accounts isMarked steady c
      have steadily : Monotone (run.step pump c).conn.clock.mono := by
        obtain ⟨out, -, accounts⟩ := first
        rw [accounts.clock.mono]
        exact steady
      exact first.trans (ih _ steadily)

end BatchRun

theorem handlePlainRecvDataBatchFor_accounts (isMarked : pump.isMarked = true)
    {conn : ConnectionState} (steady : Monotone conn.clock.mono) (completions : List Completion) :
    conn.Accounts (conn.handlePlainRecvDataBatchFor pump completions) := by
  unfold handlePlainRecvDataBatchFor
  rw [if_pos isMarked]
  obtain ⟨out, delivered, accounts⟩ := BatchRun.foldl_step_accounts isMarked completions
    ⟨conn.recordPlainRecvBatch completions.length none, {}, none⟩ steady
  rw [List.nil_append] at delivered
  unfold Accounts handlePlainRecvDataBatchSlices
  dsimp only
  rw [delivered]
  exact accounts

end ConnectionState

/-! ## All latencies -/

/-- What a recording does to all histograms of a stage, in one set. -/
theorem Reader.Accounts.counted [HdrHistogram] (counts : HdrHistogram.CountsSamples)
    {before after : Reader} {out : List SinkItem} (accounts : before.Accounts after out) :
    ∃ records, after.observabilityHistograms = before.observabilityHistograms.map (· ++ records) ∧
      ∀ (histograms : LatencyHistograms) (stage : MessageStage),
        (stage.histograms histograms.cumulative).Counted
            (stage.histograms (histograms.replay records).cumulative)
            ((out.flatMap SinkItem.stamps).filter DataEventMeta.sampled) ∧
          (stage.histograms histograms.interval).Counted
            (stage.histograms (histograms.replay records).interval)
            ((out.flatMap SinkItem.stamps).filter DataEventMeta.sampled) := by
  obtain ⟨records, same, messages⟩ := accounts.recorded
  obtain ⟨chunks, calls, attributed⟩ := accounts.attributed
  refine ⟨records, same, ?_⟩
  rw [← messages]
  apply LatencyHistograms.replay_counted counts
  intro stamp member sampled
  rw [messages, calls, List.mem_flatMap] at member
  obtain ⟨item, called, stamped⟩ := member
  obtain ⟨chunk, present, found⟩ := List.mem_flatMap.mp called
  obtain ⟨j, place⟩ := List.getElem?_of_mem found
  exact ⟨_, attributed chunk present j item place stamp stamped sampled⟩

/-- On a clock that does not go back, every message of a sampled chunk has all latencies, with
the time that the earlier sink calls for the chunk took, and is one sample in each stage of both
sets.  The marked handlers deliver all messages so, and record each of them once. -/
theorem latencies_attributed [HdrHistogram] [Rustls] [AcceptDigest]
    (counts : HdrHistogram.CountsSamples) :
    (∀ (clock now start : Clock) (recvSequence : Nat) (base : DataEventMeta) (w : WsClient)
        (drain : MarkedDrain),
      Monotone clock.mono →
      (DataEventMeta.recvObservedNow clock recvSequence true).2.Before now →
      DataEventMeta.Chunk (DataEventMeta.recvObservedNow clock recvSequence true).1 now base start →
      ∀ (j : Nat) (call : List DataEventMeta), (w.markedCalls base start drain).1[j]? = some call →
        ∀ stamp ∈ call,
          stamp.Attributed ((services start (w.markedCalls base start drain).1).take j).sum ∧
            ∀ (histograms : LatencyHistograms) (stage : MessageStage),
              (stage.histograms histograms.cumulative).AddsOne
                  (MessageChunkPosition.fromMeta stamp)
                  (stage.histograms (histograms.recordMessage stamp).cumulative) ∧
                (stage.histograms histograms.interval).AddsOne
                  (MessageChunkPosition.fromMeta stamp)
                  (stage.histograms (histograms.recordMessage stamp).interval)) ∧
    (∀ (conn : ConnectionState) (pump : PumpKind), pump.isMarked = true →
      Monotone conn.clock.mono →
      ∀ handled : Handled,
        ((∃ c, handled = conn.recvHandler pump c) ∨
          ∃ completions, handled = conn.batchHandler pump completions) →
        (∃ chunks : List ChunkCalls,
          handled.out = chunks.flatMap ChunkCalls.calls ∧ ∀ chunk ∈ chunks, chunk.Attributed) ∧
        ∃ records,
          handled.conn.observabilityHistograms =
              conn.observabilityHistograms.map (· ++ records) ∧
            ∀ (histograms : LatencyHistograms) (stage : MessageStage),
              (stage.histograms histograms.cumulative).Counted
                  (stage.histograms (histograms.replay records).cumulative)
                  ((handled.out.flatMap SinkItem.stamps).filter DataEventMeta.sampled) ∧
                (stage.histograms histograms.interval).Counted
                  (stage.histograms (histograms.replay records).interval)
                  ((handled.out.flatMap SinkItem.stamps).filter DataEventMeta.sampled)) := by
  constructor
  · intro clock now start recvSequence base w drain steady later chunk j call found stamp member
    have steadily : Monotone now.mono := by
      rw [later.mono, (DataEventMeta.recvObservedNow_before clock recvSequence true).mono]
      exact steady
    have steadiest : Monotone start.mono := by
      rw [chunk.before.mono]
      exact steadily
    have observed := (DataEventMeta.recvObservedNow_observed steady recvSequence true).later later
      (by rw [(DataEventMeta.recvObservedNow_before clock recvSequence true).mono]; exact steady)
    have ready := chunk.ready observed steadily
    have sampled : base.sampled = true := by
      rw [chunk.sampled, DataEventMeta.recvObservedNow_sampled]
    have attributed := (markedCalls_clocked w steadiest ready drain).attributed sampled
      (ready.received sampled) found member
    refine ⟨attributed, fun histograms stage => ⟨?_, ?_⟩⟩
    · exact histograms.cumulative.recordMessage_addsOne attributed stage
    · exact histograms.interval.recordMessage_addsOne attributed stage
  · intro conn pump isMarked steady handled handler
    have accounts : conn.Accounts handled := by
      rcases handler with ⟨c, rfl⟩ | ⟨completions, rfl⟩
      · rw [conn.recvHandler_eq]
        exact ConnectionState.onRecvCqeFor_accounts isMarked steady c
      · rw [conn.batchHandler_eq]
        exact ConnectionState.handlePlainRecvDataBatchFor_accounts isMarked steady completions
    exact ⟨accounts.attributed, accounts.counted counts⟩

namespace Sample

/-- A histogram that keeps its values, those that are too large as the largest it can hold. -/
structure Values where
  highest : Nat
  values : List Nat

@[reducible] def values : HdrHistogram where
  Histogram := Values
  newWithBounds lowest highest sigfig :=
    if lowest = 0 ∨ highest < 2 * lowest ∨ 5 < sigfig then .error "bounds"
    else .ok ⟨highest, []⟩
  saturatingRecord hist value := { hist with values := hist.values ++ [min value hist.highest] }
  reset hist := { hist with values := [] }
  len hist := min hist.values.length u64Max

attribute [local instance] values Ws.Sample.digest

theorem values_counts : HdrHistogram.CountsSamples where
  bounded hist := Nat.min_le_right _ _
  record hist value := by
    simp only [HdrHistogram.saturatingRecord, HdrHistogram.len, List.length_append,
      List.length_singleton, saturatingAdd64, u64Max]
    omega

/-- Ten nanoseconds from one reading to the next. -/
def ticking : Clock := ⟨fun k => 10 * k, fun _ => 0, 0, 0⟩

theorem ticking_steady : Monotone ticking.mono := fun _ _ order => Nat.mul_le_mul_left 10 order

def received : DataEventMeta := (DataEventMeta.recvObservedNow ticking 7 true).1

def receivedAt : Clock := (DataEventMeta.recvObservedNow ticking 7 true).2

end Sample

attribute [local instance] Sample.values Ws.Sample.digest Sample.rustls

/-- Two messages in a decrypted chunk: the second one follows a sink call of ten nanoseconds. -/
theorem latencies_attributed_two :
    let base := (Sample.received.plaintextReadyNow Sample.receivedAt 0).1
    let start := (Sample.received.plaintextReadyNow Sample.receivedAt 0).2
    let calls := (Ws.Sample.opened.markedCalls base start
      (.ingressEvents [0x81, 0x01, 0x41, 0x81, 0x01, 0x42] 0)).1
    services start calls = [10, 10] ∧
      ∀ call, calls[1]? = some call → ∀ stamp ∈ call, stamp.Attributed 10 := by
  dsimp only
  have served : services (Sample.received.plaintextReadyNow Sample.receivedAt 0).2
      (Ws.Sample.opened.markedCalls (Sample.received.plaintextReadyNow Sample.receivedAt 0).1
        (Sample.received.plaintextReadyNow Sample.receivedAt 0).2
        (.ingressEvents [0x81, 0x01, 0x41, 0x81, 0x01, 0x42] 0)).1 = [10, 10] := by
    decide +kernel
  refine ⟨served, fun call found stamp member => ?_⟩
  obtain ⟨attributed, -⟩ := (latencies_attributed Sample.values_counts).1 Sample.ticking
    Sample.receivedAt _ 7 _ Ws.Sample.opened _ Sample.ticking_steady (.refl _) (.now 0) 1 call found
    stamp member
  rw [show (DataEventMeta.recvObservedNow Sample.ticking 7 true).1 = Sample.received from rfl,
    served] at attributed
  exact attributed

end Talaris
