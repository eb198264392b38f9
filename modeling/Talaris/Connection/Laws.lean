import Talaris.Connection.Completion
import Talaris.Connection.Secure
import Talaris.Ws.Uses

/-!
# What the handlers leave alone

The endpoint of a connection never changes, the queue of outgoing bytes changes with the
submit phase and the Send completion only, and the ring stays the one that the Connect
completion registered.  After it has closed, a connection keeps its state and its WebSocket
client whatever completes.
-/

namespace Talaris

open Talaris.Ws

/-! ## The proactor -/

theorem Proactor.push_spec (proactor : Proactor) (sqe : Sqe) :
    proactor.push sqe = ({ proactor with sq := proactor.sq ++ [sqe] }, .ok ()) ∨
      proactor.push sqe = (proactor, .error .sqFull) := by
  unfold Proactor.push
  split
  · exact .inl rfl
  · exact .inr rfl

theorem UserData.kind_new (kind : OpKind) (token : Nat) :
    (UserData.new kind token).kind = some kind := by
  have mask : UserData.tokenMask = 2 ^ 56 - 1 := rfl
  have fits : token % 2 ^ 56 < 2 ^ 56 := Nat.mod_lt _ (by decide)
  simp only [UserData.kind, UserData.new, mask, Nat.and_two_pow_sub_one_eq_mod]
  have upper : (kind.asU8 <<< 56 ||| token % 2 ^ 56) >>> 56 = kind.asU8 := by
    rw [← Nat.shiftLeft_add_eq_or_of_lt fits, Nat.shiftLeft_eq, Nat.shiftRight_eq_div_pow]
    omega
  rw [upper]
  cases kind <;> rfl

/-- What recycling does not touch of a ring. -/
def BufferRing.tag (ring : BufferRing) : Nat × Nat × Bool :=
  (ring.ringMem, ring.bgid, ring.unregistered)

@[simp] theorem BufferRing.recycle_tag (ring : BufferRing) (bid : Nat) :
    (ring.recycle bid).tag = ring.tag := by
  unfold BufferRing.recycle
  split <;> rfl

@[simp] theorem BufferRing.recycleAll_tag (ring : BufferRing) (bids : List Nat) :
    (ring.recycleAll bids).tag = ring.tag := by
  unfold BufferRing.recycleAll
  induction bids generalizing ring with
  | nil => rfl
  | cons bid bids ih => rw [List.foldl_cons, ih, BufferRing.recycle_tag]

/-! ## Reading chunks -/

section Reading

variable [AcceptDigest]

theorem PumpKind.drain_uses (pump : PumpKind) (ws : WsClient) (chunk : Bytes)
    (base : DataEventMeta) (clock : Clock) (sequence : Nat) :
    ws.Uses (pump.drain ws chunk base clock sequence).ws := by
  cases pump with
  | events => exact ws.call_uses (.feedRecv chunk) (by simp)
  | data => exact ws.call_uses (.drainFromIngress .events chunk) (by simp)
  | dataBatches => exact ws.call_uses (.drainFromIngress .batches chunk) (by simp)
  | dataMarked =>
      exact ws.call_uses (.drainFromIngress (.marked base clock sequence) chunk) (by simp)
  | dataMarkedBatches =>
      exact ws.call_uses (.drainFromIngress (.markedBatches base clock sequence) chunk) (by simp)

theorem Reading.take_uses (pump : PumpKind) (source : ChunkSource) (recvMeta : DataEventMeta)
    (reading : Reading) (chunk : Bytes) :
    reading.ws.Uses (reading.take pump source recvMeta chunk).ws := by
  unfold Reading.take
  split
  · exact .refl _
  · exact pump.drain_uses ..

theorem Reading.takeAll_uses (pump : PumpKind) (source : ChunkSource) (recvMeta : DataEventMeta)
    (reading : Reading) (chunks : List Bytes) :
    reading.ws.Uses (reading.takeAll pump source recvMeta chunks).ws := by
  unfold Reading.takeAll
  induction chunks generalizing reading with
  | nil => exact .refl _
  | cons chunk chunks ih => exact (reading.take_uses pump source recvMeta chunk).trans (ih _)

end Reading

namespace ConnectionState

variable [Rustls]

/-! ## A closed connection -/

/-- What a late completion leaves of a closed connection. -/
structure Frozen (conn conn' : ConnectionState) : Prop where
  endpoint : conn'.toEndpoint = conn.toEndpoint
  state : conn'.state = conn.state
  reader : conn'.toReader = conn.toReader
  tls : conn'.tls = conn.tls
  pendingOut : conn'.tlsPendingOut = conn.tlsPendingOut
  ring : conn'.bufRing.map BufferRing.tag = conn.bufRing.map BufferRing.tag

theorem discardRecvCompletionAfterClosed_frozen (conn : ConnectionState) (c : Completion) :
    conn.Frozen (conn.discardRecvCompletionAfterClosed c) := by
  have recycled (f : BufferRing → BufferRing) (same : ∀ ring, (f ring).tag = ring.tag) :
      (conn.bufRing.map f).map BufferRing.tag = conn.bufRing.map BufferRing.tag := by
    cases conn.bufRing <;> simp [same]
  unfold discardRecvCompletionAfterClosed
  dsimp only
  split
  next => exact ⟨rfl, rfl, rfl, rfl, rfl, rfl⟩
  next => split <;> exact ⟨rfl, rfl, rfl, rfl, rfl, rfl⟩
  next => exact ⟨rfl, rfl, rfl, rfl, rfl, recycled _ fun ring => ring.recycleAll_tag _⟩
  next => split <;> exact ⟨rfl, rfl, rfl, rfl, rfl, recycled _ fun ring => ring.recycleAll_tag _⟩

theorem discardCompletionAfterClosed_frozen (conn : ConnectionState)
    (closed : conn.state = .closed) (kind : OpKind) (c : Completion) :
    conn.Frozen (conn.discardCompletionAfterClosed kind c) := by
  cases kind with
  | recv => exact conn.discardRecvCompletionAfterClosed_frozen c
  | close => exact ⟨rfl, closed.symm, rfl, rfl, rfl, rfl⟩
  | send | connect | nop => exact ⟨rfl, rfl, rfl, rfl, rfl, rfl⟩

section Closed

variable [AcceptDigest]

/-- A closed connection makes no sink call and keeps its state. -/
theorem handleCompletionFor_closed (conn : ConnectionState) (closed : conn.state = .closed)
    (proactor : Proactor) (pump : PumpKind) (c : Completion) :
    (conn.handleCompletionFor proactor pump c).1 = proactor ∧
      (conn.handleCompletionFor proactor pump c).2.out = [] ∧
      conn.Frozen (conn.handleCompletionFor proactor pump c).2.conn := by
  unfold handleCompletionFor
  cases c.userData.kind with
  | none => exact ⟨rfl, rfl, rfl, rfl, rfl, rfl, rfl, rfl⟩
  | some kind =>
      dsimp only
      rw [if_pos closed]
      exact ⟨rfl, rfl, conn.discardCompletionAfterClosed_frozen closed kind c⟩

end Closed

/-! ## Receiving -/

section Receiving

variable [AcceptDigest]

/-- What a receive leaves of a connection: it may only move forward. -/
structure Advances (conn conn' : ConnectionState) : Prop where
  endpoint : conn'.toEndpoint = conn.toEndpoint
  queue : conn'.toSendQueue = conn.toSendQueue
  state : conn.state.rank ≤ conn'.state.rank
  ws : conn.ws.Uses conn'.ws
  tls : SecureMove conn.tls conn.tlsPendingOut conn'.tls conn'.tlsPendingOut
  ring : conn'.bufRing.map BufferRing.tag = conn.bufRing.map BufferRing.tag

theorem Advances.refl (conn : ConnectionState) : conn.Advances conn :=
  ⟨rfl, rfl, Nat.le_refl _, .refl _, .same _ _, rfl⟩

theorem Advances.trans {conn conn' conn'' : ConnectionState} (first : conn.Advances conn')
    (second : conn'.Advances conn'') : conn.Advances conn'' where
  endpoint := second.endpoint.trans first.endpoint
  queue := second.queue.trans first.queue
  state := Nat.le_trans first.state second.state
  ws := first.ws.trans second.ws
  tls := first.tls.trans second.tls
  ring := second.ring.trans first.ring

theorem advances_closed (conn : ConnectionState) : conn.Advances { conn with state := .closed } :=
  ⟨rfl, rfl, State.rank_le_closed _, .refl _, .same _ _, rfl⟩

theorem advances_recycle (conn : ConnectionState) (bids : List Nat) :
    conn.Advances (conn.recycle bids) := by
  refine ⟨rfl, rfl, Nat.le_refl _, .refl _, .same _ _, ?_⟩
  unfold recycle
  cases conn.bufRing <;> simp

theorem beginWsHandshake_advances (conn : ConnectionState) :
    conn.Advances conn.beginWsHandshake.1 := by
  have used := conn.ws.beginHandshake_uses
  unfold beginWsHandshake
  split
  next ws e begun =>
    rw [begun] at used
    exact ⟨rfl, rfl, Nat.le_refl _, used, .same _ _, rfl⟩
  next ws begun =>
    rw [begun] at used
    exact ⟨rfl, rfl, Nat.le_refl _, used, .same _ _, rfl⟩

theorem afterTlsHandshake_advances (conn : ConnectionState) (tls : TlsAdapter) :
    conn.Advances (conn.afterTlsHandshake tls).1 := by
  unfold afterTlsHandshake
  split
  next handshake =>
    split
    next => exact .refl conn
    next =>
      have shaken : conn.Advances { conn with state := .wsHandshake } :=
        ⟨rfl, rfl, by simp [handshake.2.1, State.rank], .refl _, .same _ _, rfl⟩
      exact shaken.trans (beginWsHandshake_advances _)
  next => exact .refl conn

theorem noteCloseNotify_advances (conn : ConnectionState) (tls : TlsAdapter) :
    conn.Advances (conn.noteCloseNotify tls) := by
  unfold noteCloseNotify
  split
  next noted =>
    refine ⟨rfl, rfl, ?_, .refl _, .same _ _, rfl⟩
    obtain ⟨-, notClosed, -⟩ := noted
    cases state : conn.state <;> simp_all [State.rank]
  next => exact .refl conn

theorem recvPlain_advances (conn : ConnectionState) (pump : PumpKind) (recvMeta : DataEventMeta)
    (slices : List (Nat × Bytes)) (n : Nat) :
    conn.Advances (conn.recvPlain pump recvMeta slices n).conn := by
  have read : conn.Advances
      { conn with
        toReader := ((Reading.start conn.toReader).takeAll pump .plain recvMeta
          (slices.map Prod.snd)).toReader } :=
    ⟨rfl, rfl, Nat.le_refl _,
      Reading.takeAll_uses pump .plain recvMeta (Reading.start conn.toReader) _, .same _ _, rfl⟩
  have recycled := read.trans (advances_recycle _ (slices.map Prod.fst))
  unfold recvPlain
  dsimp only
  split <;> exact recycled.trans ⟨rfl, rfl, Nat.le_refl _, .refl _, .same _ _, rfl⟩

theorem TlsReading.ingest_uses (pump : PumpKind) (recvMeta : DataEventMeta)
    (slices : List Bytes) (state : TlsReading) :
    state.reading.ws.Uses (slices.foldl (TlsReading.ingest pump recvMeta) state).reading.ws := by
  induction slices generalizing state with
  | nil => exact .refl _
  | cons slice slices ih =>
      have first : state.reading.ws.Uses (state.ingest pump recvMeta slice).reading.ws := by
        unfold TlsReading.ingest
        split
        next => exact .refl _
        next => exact Reading.takeAll_uses ..
      exact first.trans (ih _)

/-- What the adapter hands over while it ingests waits behind the rest. -/
theorem TlsReading.ingest_moves (pump : PumpKind) (recvMeta : DataEventMeta) (slices : List Bytes)
    (state : TlsReading) :
    let ingested := slices.foldl (TlsReading.ingest pump recvMeta) state
    SecureMove (some state.tls) state.pendingOut (some ingested.tls) ingested.pendingOut := by
  dsimp only
  induction slices generalizing state with
  | nil => exact .same _ _
  | cons slice slices ih =>
      have first : SecureMove (some state.tls) state.pendingOut
          (some (state.ingest pump recvMeta slice).tls)
          (state.ingest pump recvMeta slice).pendingOut := by
        unfold TlsReading.ingest
        split
        next => exact .same _ _
        next => exact .served _ (state.tls.ingestCiphertext_serves slice)
      exact first.trans (ih _)

theorem recvTls_advances (conn : ConnectionState) (pump : PumpKind) (recvMeta : DataEventMeta)
    {tls : TlsAdapter} (secured : conn.tls = some tls) (slices : List (Nat × Bytes)) :
    conn.Advances (conn.recvTls pump recvMeta tls slices).conn := by
  unfold recvTls
  dsimp only
  generalize ingestion : (slices.map Prod.snd).foldl (TlsReading.ingest pump recvMeta)
    ⟨tls, conn.tlsPendingOut, Reading.start conn.toReader, none⟩ = ingested
  have used : conn.ws.Uses ingested.reading.ws := by
    have fed := TlsReading.ingest_uses pump recvMeta (slices.map Prod.snd)
      ⟨tls, conn.tlsPendingOut, Reading.start conn.toReader, none⟩
    rw [ingestion] at fed
    exact fed
  have moves : SecureMove conn.tls conn.tlsPendingOut (some ingested.tls) ingested.pendingOut := by
    have handed := TlsReading.ingest_moves pump recvMeta (slices.map Prod.snd)
      ⟨tls, conn.tlsPendingOut, Reading.start conn.toReader, none⟩
    rw [ingestion] at handed
    rw [secured]
    exact handed
  generalize decrypted : { conn with
    toReader := ingested.reading.toReader, tls := some ingested.tls,
    tlsPendingOut := ingested.pendingOut } = conn₁
  have moved : conn.Advances conn₁ := by
    rw [← decrypted]
    exact ⟨rfl, rfl, Nat.le_refl _, used, moves, rfl⟩
  have read := moved.trans (advances_recycle conn₁ (slices.map Prod.fst))
  split
  next => exact read
  next =>
    -- the hint for the data pumps is not among the things that matter here
    generalize hinted : (if (!pump.isData) = true ∧ ingested.reading.plaintextChunks ≠ 0 then
      { conn₁.recycle (slices.map Prod.fst) with wsIngress := .dirty }
      else conn₁.recycle (slices.map Prod.fst)) = conn₂
    have noted : conn.Advances conn₂ := by
      rw [← hinted]
      split
      next => exact read.trans ⟨rfl, rfl, Nat.le_refl _, .refl _, .same _ _, rfl⟩
      next => exact read
    have handshake := noted.trans (conn₂.afterTlsHandshake_advances ingested.tls)
    split
    next conn₃ e shaken =>
      rw [shaken] at handshake
      exact handshake
    next conn₃ shaken =>
      rw [shaken] at handshake
      have closing := handshake.trans (conn₃.noteCloseNotify_advances ingested.tls)
      split <;> exact closing.trans ⟨rfl, rfl, Nat.le_refl _, .refl _, .same _ _, rfl⟩

theorem observeRecv_advances (conn : ConnectionState) (pump : PumpKind) :
    conn.Advances (conn.observeRecv pump).2 := by
  unfold observeRecv
  split <;> exact ⟨rfl, rfl, Nat.le_refl _, .refl _, .same _ _, rfl⟩

theorem recvBytes_advances (conn : ConnectionState) (pump : PumpKind) (c : Completion)
    (bid n : Nat) : conn.Advances (conn.recvBytes pump c bid n).conn := by
  have observed := conn.observeRecv_advances pump
  unfold recvBytes
  dsimp only
  generalize (conn.observeRecv pump).2 = conn₁ at observed ⊢
  have counted : conn.Advances (conn₁.recordRecvData n) :=
    observed.trans ⟨rfl, rfl, Nat.le_refl _, .refl _, .same _ _, rfl⟩
  split
  next => exact counted
  next ring present =>
    split
    next => exact counted
    next slices cut =>
      split
      next tls secured => exact counted.trans (recvTls_advances _ pump _ secured slices)
      next => exact counted.trans (recvPlain_advances _ pump _ slices n)

theorem onRecvCqeFor_advances (conn : ConnectionState) (pump : PumpKind) (c : Completion) :
    conn.Advances (conn.onRecvCqeFor pump c).conn := by
  have disarmed : conn.Advances (conn.disarm c) :=
    ⟨rfl, rfl, Nat.le_refl _, .refl _, .same _ _, rfl⟩
  unfold onRecvCqeFor
  dsimp only
  split
  next => exact disarmed.trans (advances_closed _)
  next => exact disarmed
  next =>
    split
    next => exact disarmed.trans ⟨rfl, rfl, Nat.le_refl _, .refl _, .same _ _, rfl⟩
    next => exact disarmed
  next => exact disarmed
  next => exact (disarmed.trans (advances_recycle _ _)).trans (advances_closed _)
  next => exact disarmed.trans (recvBytes_advances _ pump c _ _)

/-! ### Runs -/

theorem foldl_copyCompletion_advances (completions : List Completion) (conn : ConnectionState) :
    conn.Advances (completions.foldl copyCompletion conn) := by
  induction completions generalizing conn with
  | nil => exact .refl conn
  | cons c completions ih =>
      have copied : conn.Advances
          { (conn.disarm c).recordRecvData c.result.toNat with
            plainRecvBatchScratch := conn.plainRecvBatchScratch ++ c.bytes 0 c.result.toNat } :=
        ⟨rfl, rfl, Nat.le_refl _, .refl _, .same _ _, rfl⟩
      exact (copied.trans (advances_recycle _ _)).trans (ih _)

theorem BatchRun.bytes_advances (pump : PumpKind) (run : BatchRun) (c : Completion)
    (bid n : Nat) : run.conn.Advances (run.bytes pump c bid n).conn := by
  have observed := run.conn.observeRecv_advances pump
  unfold BatchRun.bytes
  dsimp only
  generalize (run.conn.observeRecv pump).2 = conn₁ at observed ⊢
  have counted : run.conn.Advances (conn₁.recordRecvData n) :=
    observed.trans ⟨rfl, rfl, Nat.le_refl _, .refl _, .same _ _, rfl⟩
  generalize conn₁.recordRecvData n = conn₂ at counted ⊢
  split
  next => exact counted.trans (advances_recycle _ _)
  next =>
    generalize fed : ({ conn₂.toReader, run.tally with chunkIndex := 0 } : Reading) = reading
    have used := reading.take_uses pump .plain (run.conn.observeRecv pump).1 (c.bytes 0 n)
    have read : conn₂.Advances
        { conn₂ with
          toReader := (reading.take pump .plain (run.conn.observeRecv pump).1
            (c.bytes 0 n)).toReader } := by
      refine ⟨rfl, rfl, Nat.le_refl _, ?_, .same _ _, rfl⟩
      rw [← fed] at used ⊢
      exact used
    exact (counted.trans read).trans (advances_recycle _ _)

theorem BatchRun.step_advances (pump : PumpKind) (run : BatchRun) (c : Completion) :
    run.conn.Advances (run.step pump c).conn := by
  have disarmed : run.conn.Advances (run.conn.disarm c) :=
    ⟨rfl, rfl, Nat.le_refl _, .refl _, .same _ _, rfl⟩
  unfold BatchRun.step
  dsimp only
  split
  next =>
    split
    next => exact disarmed
    next =>
      split
      next => exact disarmed.trans (advances_closed _)
      next => exact disarmed
      next =>
        split
        next => exact disarmed.trans ⟨rfl, rfl, Nat.le_refl _, .refl _, .same _ _, rfl⟩
        next => exact disarmed
  next => exact (disarmed.trans (advances_recycle _ _)).trans (advances_closed _)
  next => exact disarmed.trans (advances_recycle _ _)
  next => exact disarmed.trans (BatchRun.bytes_advances pump ⟨_, run.tally, run.firstErr⟩ c _ _)

theorem foldl_step_advances (pump : PumpKind) (completions : List Completion) (run : BatchRun) :
    run.conn.Advances (completions.foldl (BatchRun.step pump) run).conn := by
  induction completions generalizing run with
  | nil => exact .refl _
  | cons c completions ih => exact (run.step_advances pump c).trans (ih _)

theorem handlePlainRecvDataBatchFor_advances (conn : ConnectionState) (pump : PumpKind)
    (completions : List Completion) :
    conn.Advances (conn.handlePlainRecvDataBatchFor pump completions).conn := by
  have counted (copied : Option Nat) :
      conn.Advances (conn.recordPlainRecvBatch completions.length copied) :=
    ⟨rfl, rfl, Nat.le_refl _, .refl _, .same _ _, rfl⟩
  unfold handlePlainRecvDataBatchFor
  split
  next totalBytes _ =>
    refine (counted (some totalBytes)).trans ?_
    generalize conn.recordPlainRecvBatch completions.length (some totalBytes) = conn₁
    have emptied : conn₁.Advances { conn₁ with plainRecvBatchScratch := [] } :=
      ⟨rfl, rfl, Nat.le_refl _, .refl _, .same _ _, rfl⟩
    have copied := emptied.trans (foldl_copyCompletion_advances completions _)
    unfold handlePlainRecvDataBatchCopied
    dsimp only
    generalize completions.foldl copyCompletion { conn₁ with plainRecvBatchScratch := [] } =
      conn₂ at copied ⊢
    exact copied.trans ⟨rfl, rfl, Nat.le_refl _,
      (Reading.start conn₂.toReader).take_uses pump .plain {} conn₂.plainRecvBatchScratch,
      .same _ _, rfl⟩
  next =>
    exact ((counted none).trans
      (foldl_step_advances pump completions ⟨_, {}, none⟩)).trans
        ⟨rfl, rfl, Nat.le_refl _, .refl _, .same _ _, rfl⟩

end Receiving

/-! ## Sending -/

/-- What staging outgoing bytes leaves of a connection: of the client only the transmit side
changes. -/
structure Staged (conn conn' : ConnectionState) : Prop where
  endpoint : conn'.toEndpoint = conn.toEndpoint
  inflight : conn'.sendInflight = conn.sendInflight
  state : conn'.state = conn.state
  reader : ∃ tx, conn'.toReader = { conn.toReader with ws := { conn.ws with tx } }
  tls : conn'.tls.isSome = conn.tls.isSome
  ring : conn'.bufRing = conn.bufRing
  armed : conn'.multishotArmed = conn.multishotArmed

theorem Staged.trans {conn conn' conn'' : ConnectionState} (first : conn.Staged conn')
    (second : conn'.Staged conn'') : conn.Staged conn'' where
  endpoint := second.endpoint.trans first.endpoint
  inflight := second.inflight.trans first.inflight
  state := second.state.trans first.state
  reader := by
    obtain ⟨tx, same⟩ := first.reader
    obtain ⟨tx', same'⟩ := second.reader
    exact ⟨tx', by rw [same', same]⟩
  tls := second.tls.trans first.tls
  ring := second.ring.trans first.ring
  armed := second.armed.trans first.armed

theorem Staged.refl (conn : ConnectionState) : conn.Staged conn :=
  ⟨rfl, rfl, rfl, ⟨conn.ws.tx, rfl⟩, rfl, rfl, rfl⟩

theorem compactSend_staged (conn : ConnectionState) : conn.Staged conn.compactSend := by
  refine ⟨rfl, ?_, rfl, ⟨conn.ws.tx, rfl⟩, rfl, rfl, rfl⟩
  show conn.toSendQueue.compactSendBufIfNeeded.sendInflight = conn.sendInflight
  unfold SendQueue.compactSendBufIfNeeded
  repeat' split
  all_goals rfl

theorem mergeTlsPendingOut_staged (conn : ConnectionState) :
    conn.Staged conn.mergeTlsPendingOut := by
  unfold mergeTlsPendingOut
  split
  next => exact .refl conn
  next => exact ⟨rfl, rfl, rfl, ⟨conn.ws.tx, rfl⟩, rfl, rfl, rfl⟩

theorem stageWs_staged (conn : ConnectionState) (bytes : Bytes) :
    conn.Staged (conn.stageWs bytes) := by
  unfold stageWs
  split
  next => exact .refl conn
  next => exact ⟨rfl, rfl, rfl, ⟨_, rfl⟩, rfl, rfl, rfl⟩

theorem stageTls_staged (conn : ConnectionState) {tls : TlsAdapter} (secured : conn.tls = some tls)
    (adapter : TlsAdapter) : conn.Staged (conn.stageTls adapter).1 := by
  have some_tls : conn.tls.isSome = true := by simp [secured]
  unfold stageTls
  split
  next => exact ⟨rfl, rfl, rfl, ⟨conn.ws.tx, rfl⟩, by simp [some_tls], rfl, rfl⟩
  next tls₁ ciphertext written =>
    have staged := conn.stageWs_staged ciphertext
    dsimp only
    generalize conn.stageWs ciphertext = conn₁ at staged ⊢
    have still : conn₁.tls.isSome = true := staged.tls.trans some_tls
    split <;>
      exact staged.trans ⟨rfl, rfl, rfl, ⟨conn₁.ws.tx, rfl⟩, by simp [still], rfl, rfl⟩

theorem stageSend_staged (conn : ConnectionState) : conn.Staged conn.stageSend.1 := by
  have merged := conn.compactSend_staged.trans conn.compactSend.mergeTlsPendingOut_staged
  unfold stageSend
  dsimp only
  split
  next => exact merged.trans (stageWs_staged _ _)
  next tls secured => exact merged.trans (stageTls_staged _ secured tls)

/-- The submit phase of the send side: nothing to do, staged without a submission, or staged
and pushed. -/
theorem trySubmitSend_cases (conn : ConnectionState) (proactor : Proactor) :
    (conn.trySubmitSend proactor = (conn, proactor, .ok ())) ∨
      (conn.sendInflight = false ∧ conn.quiet = false ∧
        ∃ conn₁ result, conn.Staged conn₁ ∧
          conn.trySubmitSend proactor = (conn₁, proactor, result)) ∨
      (conn.sendInflight = false ∧ conn.quiet = false ∧
        ∃ conn₁, conn.Staged conn₁ ∧
          conn.trySubmitSend proactor =
            ({ conn₁ with sendInflight := true },
              { proactor with sq := proactor.sq ++ [conn₁.sendSqe] }, .ok ())) := by
  have staged := conn.stageSend_staged
  unfold trySubmitSend
  split
  next => exact .inl rfl
  next ready =>
    simp only [not_or, Bool.not_eq_true] at ready
    refine .inr ?_
    split
    next conn₁ e stages =>
      rw [stages] at staged
      exact .inl ⟨ready.1, ready.2, conn₁, .error e, staged, rfl⟩
    next conn₁ stages =>
      rw [stages] at staged
      split
      next => exact .inl ⟨ready.1, ready.2, conn₁, .ok (), staged, rfl⟩
      next =>
        rcases proactor.push_spec conn₁.sendSqe with pushed | full
        · exact .inr ⟨ready.1, ready.2, conn₁, staged, by rw [pushed]⟩
        · exact .inl ⟨ready.1, ready.2, conn₁, _, staged, by rw [full]⟩

/-- Arming a receive pushes it or leaves the proactor alone. -/
theorem submitRecvForMode_cases (conn : ConnectionState) (proactor : Proactor) (bgid : Nat) :
    conn.submitRecvForMode proactor bgid =
        ({ proactor with sq := proactor.sq ++ [conn.recvSqe bgid] }, .ok ()) ∨
      ∃ e, conn.submitRecvForMode proactor bgid = (proactor, .error e) := by
  unfold submitRecvForMode
  split
  next => exact .inr ⟨_, rfl⟩
  next =>
    rcases proactor.push_spec (conn.recvSqe bgid) with pushed | full
    · exact .inl (by rw [pushed])
    · exact .inr ⟨_, by rw [full]⟩

theorem tryRearmMultishot_cases (conn : ConnectionState) (proactor : Proactor) :
    (∃ result, conn.tryRearmMultishot proactor = (conn, proactor, result)) ∨
      (conn.quiet = false ∧ ∃ ring, conn.bufRing = some ring ∧
        conn.tryRearmMultishot proactor =
          ({ conn with multishotArmed := true }.recordRecvMultishotRearm,
            { proactor with sq := proactor.sq ++ [conn.recvSqe ring.bgid] }, .ok ())) := by
  unfold tryRearmMultishot
  split
  next => exact .inl ⟨_, rfl⟩
  next ready =>
    simp only [not_or, Bool.not_eq_true] at ready
    split
    next => exact .inl ⟨_, rfl⟩
    next ring present =>
      rcases conn.submitRecvForMode_cases proactor ring.bgid with armed | ⟨e, refused⟩
      · exact .inr ⟨ready.2, ring, present, by rw [armed]⟩
      · exact .inl ⟨.error e, by rw [refused]⟩

/-! ## Following the WebSocket state -/

/-- Both syncs, as one change of the state. -/
def syncedState (conn : ConnectionState) : State :=
  if conn.ws.state = .isOpen then .isOpen
  else if conn.ws.state = .closed ∧ conn.state ≠ .closed then .closing
  else conn.state

theorem syncs_eq (conn : ConnectionState) :
    conn.syncWsOpenState.syncWsCloseState = { conn with state := conn.syncedState } := by
  unfold syncWsCloseState syncWsOpenState syncedState
  cases conn
  rename_i endpoint queue reader tls state bufRing scratch pendingOut armed begun ingress stats
  cases wsState : reader.ws.state <;> cases state <;> simp [wsState]

/-- Following the WebSocket state closes no connection. -/
theorem syncedState_ne_closed {conn : ConnectionState} (active : conn.state ≠ .closed) :
    conn.syncedState ≠ .closed := by
  unfold syncedState
  repeat' split
  all_goals first | exact active | decide

/-- A closed connection stays closed unless its client is open. -/
theorem syncedState_closed {conn : ConnectionState} (closed : conn.state = .closed)
    (notOpen : conn.ws.state ≠ .isOpen) : conn.syncedState = .closed := by
  unfold syncedState
  rw [if_neg notOpen, if_neg (by simp [closed])]
  exact closed

theorem syncWsOpenState_eq (conn : ConnectionState) :
    conn.syncWsOpenState =
      { conn with state := if conn.ws.state = .isOpen then .isOpen else conn.state } := by
  unfold syncWsOpenState
  by_cases follows : conn.ws.state = .isOpen
  · by_cases same : conn.state = .isOpen
    · rw [if_neg (by simp [same]), if_pos follows, ← same]
    · rw [if_pos ⟨follows, same⟩, if_pos follows]
  · rw [if_neg (by simp [follows]), if_neg follows]

end ConnectionState

end Talaris
