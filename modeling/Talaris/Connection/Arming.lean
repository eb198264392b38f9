import Talaris.Connection.Laws

/-!
# The flag of the armed receive

`multishotArmed` says that a receive stands in the kernel.  Only the submit phase and the Connect
completion set it, and only a completion that ends its receive takes it back.
-/

namespace Talaris

open Talaris.Ws

/-- The completion of a receive that posts no more. -/
def Completion.endsRecv (c : Completion) : Bool := c.userData.kind = some .recv && !c.hasMore

/-- A receive that fails has ended. -/
def Completion.Consistent (c : Completion) : Prop := c.result < 0 → c.hasMore = false

instance (c : Completion) : Decidable c.Consistent :=
  inferInstanceAs (Decidable (_ → _))

theorem Completion.Consistent.ended {c : Completion} (consistent : c.Consistent) {e : IoError}
    (failed : c.toResult = .error e) : c.hasMore = false := by
  apply consistent
  unfold toResult at failed
  split at failed
  next => cases failed
  next negative => exact Int.not_le.mp negative

namespace ConnectionState

section Arming

variable [Rustls] [AcceptDigest]

/-! ## Parts of the handlers -/

omit [AcceptDigest] in
theorem beginWsHandshake_armed (conn : ConnectionState) :
    conn.beginWsHandshake.1.multishotArmed = conn.multishotArmed := by
  unfold beginWsHandshake
  split <;> rfl

omit [AcceptDigest] in
theorem afterTlsHandshake_armed (conn : ConnectionState) (tls : TlsAdapter) :
    (conn.afterTlsHandshake tls).1.multishotArmed = conn.multishotArmed := by
  unfold afterTlsHandshake
  split
  next =>
    split
    next => rfl
    next => exact beginWsHandshake_armed { conn with state := .wsHandshake }
  next => rfl

omit [AcceptDigest] in
theorem noteCloseNotify_armed (conn : ConnectionState) (tls : TlsAdapter) :
    (conn.noteCloseNotify tls).multishotArmed = conn.multishotArmed := by
  unfold noteCloseNotify
  split <;> rfl

omit [AcceptDigest] in
theorem observeRecv_armed (conn : ConnectionState) (pump : PumpKind) :
    (conn.observeRecv pump).2.multishotArmed = conn.multishotArmed := by
  unfold observeRecv
  split <;> rfl

theorem recvPlain_armed (conn : ConnectionState) (pump : PumpKind) (recvMeta : DataEventMeta)
    (slices : List (Nat × Bytes)) (n : Nat) :
    (conn.recvPlain pump recvMeta slices n).conn.multishotArmed = conn.multishotArmed := by
  unfold recvPlain
  dsimp only
  split <;> rfl

theorem recvTls_armed (conn : ConnectionState) (pump : PumpKind) (recvMeta : DataEventMeta)
    (tls : TlsAdapter) (slices : List (Nat × Bytes)) :
    (conn.recvTls pump recvMeta tls slices).conn.multishotArmed = conn.multishotArmed := by
  unfold recvTls
  dsimp only
  generalize (slices.map Prod.snd).foldl (TlsReading.ingest pump recvMeta)
    (⟨tls, conn.tlsPendingOut, Reading.start conn.toReader, none⟩ : TlsReading) = ingested
  generalize decrypted : { conn with
    toReader := ingested.reading.toReader, tls := some ingested.tls,
    tlsPendingOut := ingested.pendingOut } = conn₀
  have before : conn₀.multishotArmed = conn.multishotArmed := by rw [← decrypted]
  split
  next => exact before
  next =>
    generalize hinted : (if (!pump.isData) = true ∧ ingested.reading.plaintextChunks ≠ 0 then
      { conn₀.recycle (slices.map Prod.fst) with wsIngress := .dirty }
      else conn₀.recycle (slices.map Prod.fst)) = conn₁
    have same : conn₁.multishotArmed = conn.multishotArmed := by
      rw [← hinted, ← before]
      split <;> rfl
    have handshake := conn₁.afterTlsHandshake_armed ingested.tls
    split
    next conn₂ e shaken =>
      rw [shaken] at handshake
      exact handshake.trans same
    next conn₂ shaken =>
      rw [shaken] at handshake
      have noted := conn₂.noteCloseNotify_armed ingested.tls
      split <;> exact noted.trans (handshake.trans same)

theorem recvBytes_armed (conn : ConnectionState) (pump : PumpKind) (c : Completion) (bid n : Nat) :
    (conn.recvBytes pump c bid n).conn.multishotArmed = conn.multishotArmed := by
  have observed := observeRecv_armed conn pump
  unfold recvBytes
  dsimp only
  generalize (conn.observeRecv pump).2 = conn₁ at observed ⊢
  rw [← observed]
  split
  next => rfl
  next =>
    split
    next => rfl
    next =>
      split
      next => exact recvTls_armed (conn₁.recordRecvData n) pump ..
      next => exact recvPlain_armed (conn₁.recordRecvData n) pump ..

/-! ## Receive completions -/

theorem onRecvCqeFor_armed (conn : ConnectionState) (pump : PumpKind) {c : Completion}
    (consistent : c.Consistent) :
    (conn.onRecvCqeFor pump c).conn.multishotArmed = (conn.multishotArmed && c.hasMore) := by
  unfold onRecvCqeFor
  dsimp only
  split
  next => rfl
  next => rfl
  next failed =>
    split
    next => simp [consistent.ended failed]
    next => rfl
  next => rfl
  next => rfl
  next => exact recvBytes_armed (conn.disarm c) pump c _ _

omit [AcceptDigest] in
theorem discardRecvCompletionAfterClosed_armed (conn : ConnectionState) {c : Completion}
    (consistent : c.Consistent) :
    (conn.discardRecvCompletionAfterClosed c).multishotArmed =
      (conn.multishotArmed && c.hasMore) := by
  unfold discardRecvCompletionAfterClosed
  dsimp only
  split
  next => rfl
  next => split <;> rfl
  next => rfl
  next failed =>
    split
    next => simp [consistent.ended failed, recycle]
    next => rfl

/-! ## Runs -/

theorem step_armed (pump : PumpKind) (run : BatchRun) {c : Completion}
    (consistent : c.Consistent) :
    (run.step pump c).conn.multishotArmed = (run.conn.multishotArmed && c.hasMore) := by
  unfold BatchRun.step
  dsimp only
  split
  next =>
    split
    next => rfl
    next =>
      split
      next => rfl
      next => rfl
      next failed =>
        split
        next => simp [consistent.ended failed]
        next => rfl
  next => rfl
  next => rfl
  next =>
    have observed := observeRecv_armed (run.conn.disarm c) pump
    unfold BatchRun.bytes
    dsimp only
    split
    next => exact observed
    next => exact observed

theorem steps_armed (pump : PumpKind) {completions : List Completion}
    (consistent : ∀ c ∈ completions, c.Consistent) (run : BatchRun) :
    (completions.foldl (BatchRun.step pump) run).conn.multishotArmed =
      (run.conn.multishotArmed && completions.all Completion.hasMore) := by
  induction completions generalizing run with
  | nil => simp
  | cons c completions ih =>
      obtain ⟨first, later⟩ := List.forall_mem_cons.mp consistent
      rw [List.foldl_cons, ih later, step_armed pump run first, List.all_cons, Bool.and_assoc]

omit [AcceptDigest] in
theorem copies_armed (completions : List Completion) (conn : ConnectionState) :
    (completions.foldl copyCompletion conn).multishotArmed =
      (conn.multishotArmed && completions.all Completion.hasMore) := by
  induction completions generalizing conn with
  | nil => simp
  | cons c completions ih =>
      have first : (conn.copyCompletion c).multishotArmed = (conn.multishotArmed && c.hasMore) := rfl
      rw [List.foldl_cons, ih, first, List.all_cons, Bool.and_assoc]

theorem handlePlainRecvDataBatchFor_armed (conn : ConnectionState) (pump : PumpKind)
    {completions : List Completion} (consistent : ∀ c ∈ completions, c.Consistent) :
    (conn.handlePlainRecvDataBatchFor pump completions).conn.multishotArmed =
      (conn.multishotArmed && completions.all Completion.hasMore) := by
  unfold handlePlainRecvDataBatchFor
  split
  next totalBytes _ =>
    have copied := copies_armed completions
      { conn.recordPlainRecvBatch completions.length (some totalBytes) with
        plainRecvBatchScratch := [] }
    unfold handlePlainRecvDataBatchCopied
    dsimp only
    exact copied
  next =>
    exact steps_armed pump consistent ⟨conn.recordPlainRecvBatch completions.length none, {}, none⟩

/-! ## The submit phase -/

omit [AcceptDigest] in
/-- The submit phase arms a receive only if none is. -/
theorem tryRearmMultishot_arms (conn : ConnectionState) (proactor : Proactor) :
    (∃ result, conn.tryRearmMultishot proactor = (conn, proactor, result)) ∨
      (conn.multishotArmed = false ∧ ∃ ring, conn.bufRing = some ring ∧
        conn.tryRearmMultishot proactor =
          ({ conn with multishotArmed := true }.recordRecvMultishotRearm,
            { proactor with sq := proactor.sq ++ [conn.recvSqe ring.bgid] }, .ok ())) := by
  cases armed : conn.multishotArmed with
  | true => exact .inl ⟨.ok (), by simp [tryRearmMultishot, armed]⟩
  | false =>
      rcases conn.tryRearmMultishot_cases proactor with same | ⟨-, ring, present, pushed⟩
      · exact .inl same
      · exact .inr ⟨rfl, ring, present, pushed⟩

omit [AcceptDigest] in
/-- A phase that succeeds leaves a receive armed, if the connection may receive. -/
theorem tryRearmMultishot_ok {conn conn' : ConnectionState} {proactor proactor' : Proactor}
    (armed : conn.tryRearmMultishot proactor = (conn', proactor', .ok ()))
    (awake : conn'.quiet = false) (ring : conn'.bufRing.isSome = true) :
    conn'.multishotArmed = true := by
  unfold tryRearmMultishot at armed
  split at armed
  next idle =>
    cases armed
    simpa [awake] using idle
  next =>
    split at armed
    next missing =>
      cases armed
      simp [missing] at ring
    next =>
      split at armed
      next => cases armed
      next =>
        cases armed
        rfl

end Arming

end ConnectionState

end Talaris
