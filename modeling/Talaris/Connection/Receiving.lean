import Talaris.Connection.Laws

/-!
# A rule for what handlers do to the client

The handlers of a connection reach its client only by feeding, draining and polling it, by the
upgrade request and by taking the pending bytes over.  A preorder on clients that these respect is
respected by every handler, whichever pump it works for and whether it fails (`Tended`).
-/

namespace Talaris

open Talaris.Ws

variable [AcceptDigest]

/-- A preorder that everything a connection does to its client on its own respects. -/
structure Tended (R : WsClient → WsClient → Prop) : Prop extends WsClient.Respected R where
  begins (w : WsClient) : R w w.beginHandshake.1
  acks (w : WsClient) : R w (w.ackTx w.pendingTx.length)

namespace Tended

variable {R : WsClient → WsClient → Prop} (tended : Tended R)
include tended

theorem drainBy (pump : PumpKind) (ws : WsClient) (chunk : Bytes) (base : DataEventMeta)
    (clock : Clock) (sequence : Nat) : R ws (pump.drain ws chunk base clock sequence).ws := by
  cases pump with
  | events => exact tended.feed ws chunk
  | data => exact tended.drainFromIngress _ ws chunk _
  | dataBatches => exact tended.drainFromIngress _ ws chunk _
  | dataMarked => exact tended.drainFromIngress _ ws chunk _
  | dataMarkedBatches => exact tended.drainFromIngress _ ws chunk _

theorem take (pump : PumpKind) (source : ChunkSource) (recvMeta : DataEventMeta)
    (reading : Reading) (chunk : Bytes) :
    R reading.ws (reading.take pump source recvMeta chunk).ws := by
  unfold Reading.take
  split
  · exact tended.refl _
  · exact tended.drainBy pump ..

theorem takeAll (pump : PumpKind) (source : ChunkSource) (recvMeta : DataEventMeta)
    (reading : Reading) (chunks : List Bytes) :
    R reading.ws (reading.takeAll pump source recvMeta chunks).ws := by
  unfold Reading.takeAll
  induction chunks generalizing reading with
  | nil => exact tended.refl _
  | cons chunk chunks ih =>
      exact tended.trans (tended.take pump source recvMeta reading chunk) (ih _)

theorem pollAll (w : WsClient) : R w w.pollAll.1 := by
  fun_induction WsClient.pollAll w with
  | case1 w w₁ polled =>
      have first := tended.pollEvent w
      rw [polled] at first
      exact first
  | case2 w w₁ e polled =>
      have first := tended.pollEvent w
      rw [polled] at first
      exact first
  | case3 w w₁ event polled w₂ events error tail ih =>
      have first := tended.pollEvent w
      rw [polled] at first
      rw [tail] at ih
      exact tended.trans first ih

variable [Rustls]

theorem ingestAll (pump : PumpKind) (recvMeta : DataEventMeta) (slices : List Bytes)
    (state : ConnectionState.TlsReading) :
    R state.reading.ws (slices.foldl (ConnectionState.TlsReading.ingest pump recvMeta) state).reading.ws := by
  induction slices generalizing state with
  | nil => exact tended.refl _
  | cons slice slices ih =>
      have first : R state.reading.ws (state.ingest pump recvMeta slice).reading.ws := by
        unfold ConnectionState.TlsReading.ingest
        split
        next => exact tended.refl _
        next => exact tended.takeAll ..
      exact tended.trans first (ih _)

/-! ## Receiving -/

theorem beginWsHandshake (conn : ConnectionState) : R conn.ws conn.beginWsHandshake.1.ws := by
  have begun := tended.begins conn.ws
  unfold ConnectionState.beginWsHandshake
  split
  next ws e refused =>
    rw [refused] at begun
    exact begun
  next ws began =>
    rw [began] at begun
    exact begun

theorem afterTlsHandshake (conn : ConnectionState) (tls : TlsAdapter) :
    R conn.ws (conn.afterTlsHandshake tls).1.ws := by
  unfold ConnectionState.afterTlsHandshake
  split
  next =>
    split
    next => exact tended.refl _
    next => exact tended.beginWsHandshake { conn with state := .wsHandshake }
  next => exact tended.refl _

omit [AcceptDigest] tended in
theorem noteCloseNotify_ws (conn : ConnectionState) (tls : TlsAdapter) :
    (conn.noteCloseNotify tls).ws = conn.ws := by
  unfold ConnectionState.noteCloseNotify
  split <;> rfl

omit [AcceptDigest] tended in
theorem observeRecv_ws (conn : ConnectionState) (pump : PumpKind) :
    (conn.observeRecv pump).2.ws = conn.ws := by
  unfold ConnectionState.observeRecv
  split <;> rfl

theorem recvPlain (conn : ConnectionState) (pump : PumpKind) (recvMeta : DataEventMeta)
    (slices : List (Nat × Bytes)) (n : Nat) :
    R conn.ws (conn.recvPlain pump recvMeta slices n).conn.ws := by
  have read := tended.takeAll pump .plain recvMeta (Reading.start conn.toReader)
    (slices.map Prod.snd)
  unfold ConnectionState.recvPlain
  dsimp only
  split <;> exact read

theorem recvTls (conn : ConnectionState) (pump : PumpKind) (recvMeta : DataEventMeta)
    (tls : TlsAdapter) (slices : List (Nat × Bytes)) :
    R conn.ws (conn.recvTls pump recvMeta tls slices).conn.ws := by
  have read := tended.ingestAll pump recvMeta (slices.map Prod.snd)
    ⟨tls, conn.tlsPendingOut, Reading.start conn.toReader, none⟩
  unfold ConnectionState.recvTls
  dsimp only
  generalize (slices.map Prod.snd).foldl (ConnectionState.TlsReading.ingest pump recvMeta)
    (⟨tls, conn.tlsPendingOut, Reading.start conn.toReader, none⟩ : ConnectionState.TlsReading) =
      ingested at read ⊢
  generalize decrypted : { conn with
    toReader := ingested.reading.toReader, tls := some ingested.tls,
    tlsPendingOut := ingested.pendingOut } = conn₀
  have fed : conn₀.ws = ingested.reading.ws := by rw [← decrypted]
  split
  next => exact fed ▸ read
  next =>
    generalize hinted : (if (!pump.isData) = true ∧ ingested.reading.plaintextChunks ≠ 0 then
      { conn₀.recycle (slices.map Prod.fst) with wsIngress := .dirty }
      else conn₀.recycle (slices.map Prod.fst)) = conn₁
    have same : conn₁.ws = ingested.reading.ws := by
      rw [← hinted, ← fed]
      split <;> rfl
    have handshake := tended.afterTlsHandshake conn₁ ingested.tls
    rw [same] at handshake
    split
    next conn₂ e shaken =>
      rw [shaken] at handshake
      exact tended.trans read handshake
    next conn₂ shaken =>
      rw [shaken] at handshake
      have noted := noteCloseNotify_ws conn₂ ingested.tls
      split <;> exact tended.trans read (noted ▸ handshake)

theorem recvBytes (conn : ConnectionState) (pump : PumpKind) (c : Completion) (bid n : Nat) :
    R conn.ws (conn.recvBytes pump c bid n).conn.ws := by
  have observed := observeRecv_ws conn pump
  unfold ConnectionState.recvBytes
  dsimp only
  generalize (conn.observeRecv pump).2 = conn₁ at observed ⊢
  rw [← observed]
  split
  next => exact tended.refl _
  next =>
    split
    next => exact tended.refl _
    next slices _ =>
      split
      next => exact tended.recvTls (conn₁.recordRecvData n) pump ..
      next => exact tended.recvPlain (conn₁.recordRecvData n) pump ..

theorem onRecvCqeFor (conn : ConnectionState) (pump : PumpKind) (c : Completion) :
    R conn.ws (conn.onRecvCqeFor pump c).conn.ws := by
  unfold ConnectionState.onRecvCqeFor
  dsimp only
  split
  next => exact tended.refl _
  next => exact tended.refl _
  next => split <;> exact tended.refl _
  next => exact tended.refl _
  next => exact tended.refl _
  next => exact tended.recvBytes (conn.disarm c) pump c _ _

/-! ## Runs -/

omit [AcceptDigest] tended in
theorem foldl_copyCompletion_ws (completions : List Completion) (conn : ConnectionState) :
    (completions.foldl ConnectionState.copyCompletion conn).ws = conn.ws := by
  induction completions generalizing conn with
  | nil => rfl
  | cons c completions ih => exact ih _

theorem stepOf (pump : PumpKind) (run : ConnectionState.BatchRun) (c : Completion) :
    R run.conn.ws (run.step pump c).conn.ws := by
  unfold ConnectionState.BatchRun.step
  dsimp only
  split
  next =>
    split
    next => exact tended.refl _
    next =>
      split
      next => exact tended.refl _
      next => exact tended.refl _
      next => split <;> exact tended.refl _
  next => exact tended.refl _
  next => exact tended.refl _
  next bid n _ _ _ =>
    have observed := observeRecv_ws (run.conn.disarm c) pump
    unfold ConnectionState.BatchRun.bytes
    dsimp only
    generalize (run.conn.disarm c).observeRecv pump = observation at observed ⊢
    obtain ⟨recvMeta, conn₁⟩ := observation
    have same : conn₁.ws = run.conn.ws := observed
    rw [← same]
    split
    next => exact tended.refl _
    next =>
      exact tended.take pump .plain recvMeta
        { (conn₁.recordRecvData n).toReader, run.tally with chunkIndex := 0 } (c.bytes 0 n)

theorem stepAll (pump : PumpKind) (completions : List Completion)
    (run : ConnectionState.BatchRun) :
    R run.conn.ws (completions.foldl (ConnectionState.BatchRun.step pump) run).conn.ws := by
  induction completions generalizing run with
  | nil => exact tended.refl _
  | cons c completions ih => exact tended.trans (tended.stepOf pump run c) (ih _)

theorem handlePlainRecvDataBatchFor (conn : ConnectionState) (pump : PumpKind)
    (completions : List Completion) :
    R conn.ws (conn.handlePlainRecvDataBatchFor pump completions).conn.ws := by
  unfold ConnectionState.handlePlainRecvDataBatchFor
  split
  next totalBytes _ =>
    generalize counted : conn.recordPlainRecvBatch completions.length (some totalBytes) = conn₁
    have same : conn₁.ws = conn.ws := by rw [← counted]; rfl
    rw [← same]
    have copied := foldl_copyCompletion_ws completions { conn₁ with plainRecvBatchScratch := [] }
    unfold ConnectionState.handlePlainRecvDataBatchCopied
    dsimp only
    generalize completions.foldl ConnectionState.copyCompletion
      { conn₁ with plainRecvBatchScratch := [] } = conn₂ at copied ⊢
    have kept : conn₂.ws = conn₁.ws := copied
    rw [← kept]
    exact tended.take pump .plain {} (Reading.start conn₂.toReader) conn₂.plainRecvBatchScratch
  next =>
    exact tended.stepAll pump completions
      ⟨conn.recordPlainRecvBatch completions.length none, {}, none⟩

/-! ## Completions and the submit phase -/

theorem onConnectCqe (conn : ConnectionState) (proactor : Proactor) (c : Completion) :
    R conn.ws (conn.onConnectCqe proactor c).1.ws := by
  unfold ConnectionState.onConnectCqe
  dsimp only
  split
  next => exact tended.refl _
  next =>
    split
    next => exact tended.refl _
    next ring _ =>
      split
      next => exact tended.refl _
      next =>
        let armed : ConnectionState :=
          { conn with bufRing := some ring, multishotArmed := true }.recordRecvMultishotRearm
        split
        next => exact tended.beginWsHandshake { armed with state := armed.connectedState }
        next => exact tended.refl _

theorem handleCompletionFor (conn : ConnectionState) (proactor : Proactor) (pump : PumpKind)
    (c : Completion) : R conn.ws (conn.handleCompletionFor proactor pump c).2.conn.ws := by
  by_cases closed : conn.state = .closed
  · have frozen := (conn.handleCompletionFor_closed closed proactor pump c).2.2
    have same : (conn.handleCompletionFor proactor pump c).2.conn.ws = conn.ws :=
      congrArg Reader.ws frozen.reader
    rw [same]
    exact tended.refl _
  · unfold ConnectionState.handleCompletionFor
    split
    next => exact tended.refl _
    next kind _ =>
      rw [if_neg closed]
      cases kind with
      | connect => exact tended.onConnectCqe conn proactor c
      | send =>
          simp only [ConnectionState.dispatchCompletion, ConnectionState.silently,
            ConnectionState.onSendCqe]
          split <;> exact tended.refl _
      | recv =>
          simp only [ConnectionState.dispatchCompletion, ConnectionState.recvHandler_eq]
          exact tended.onRecvCqeFor conn pump c
      | close => exact tended.refl _
      | nop => exact tended.refl _

theorem stageWs (conn : ConnectionState) (bytes : Bytes) :
    R conn.ws (conn.stageWs bytes).ws := by
  unfold ConnectionState.stageWs
  split
  next => exact tended.refl _
  next => exact tended.acks conn.ws

theorem stageSend (conn : ConnectionState) : R conn.ws conn.stageSend.1.ws := by
  have merged : conn.compactSend.mergeTlsPendingOut.ws = conn.ws := by
    unfold ConnectionState.mergeTlsPendingOut
    split <;> rfl
  unfold ConnectionState.stageSend
  dsimp only
  generalize conn.compactSend.mergeTlsPendingOut = conn₁ at merged ⊢
  rw [← merged]
  split
  next => exact tended.stageWs conn₁ _
  next tls _ =>
    unfold ConnectionState.stageTls
    split
    next => exact tended.refl _
    next ciphertext _ =>
      have staged := tended.stageWs conn₁ ciphertext
      dsimp only
      split <;> exact staged

theorem trySubmitSend (conn : ConnectionState) (proactor : Proactor) :
    R conn.ws (conn.trySubmitSend proactor).1.ws := by
  unfold ConnectionState.trySubmitSend
  split
  next => exact tended.refl _
  next =>
    have staged := tended.stageSend conn
    split
    next conn₁ e stages =>
      rw [stages] at staged
      exact staged
    next conn₁ stages =>
      rw [stages] at staged
      split
      next => exact staged
      next => split <;> exact staged

omit [AcceptDigest] tended in
theorem tryRearmMultishot_ws (conn : ConnectionState) (proactor : Proactor) :
    (conn.tryRearmMultishot proactor).1.ws = conn.ws := by
  rcases conn.tryRearmMultishot_cases proactor with ⟨result, stays⟩ | ⟨-, ring, present, armed⟩
  · rw [stays]
  · rw [armed]
    rfl

end Tended

end Talaris
