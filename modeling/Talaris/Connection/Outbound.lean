import Talaris.Connection.Laws

/-!
# Bytes on their way out

A byte leaves the WebSocket client, may be turned into ciphertext, waits in the send
buffer and is taken by the kernel.  `stageSend_spec` says what the submit phase makes of the
stages before the kernel.
-/

namespace Talaris

open Talaris.Ws

/-- Acknowledging everything leaves nothing. -/
theorem Ws.TxQueue.pendingTx_ackTx_all (tx : TxQueue) (pending : tx.pendingTx ≠ []) :
    (tx.ackTx tx.pendingTx.length).pendingTx = [] := by
  have inside : tx.txHead < tx.txBuf.length := by
    by_contra outside
    exact pending (List.drop_eq_nil_of_le (Nat.le_of_not_lt outside))
  have all : tx.txHead + tx.pendingTx.length = tx.txBuf.length := by
    simp only [TxQueue.pendingTx, List.length_drop]
    omega
  rw [TxQueue.ackTx, if_pos all]
  rfl

namespace ConnectionState

variable [Rustls]

/-- Bytes that wait for the kernel, oldest first. -/
def unsent (conn : ConnectionState) : Bytes :=
  conn.sendBuf.drop conn.sendHead ++ conn.tlsPendingOut

/-- What the layers make of the pending bytes of the WebSocket client. -/
def egress (conn : ConnectionState) : Except ConnectionError Bytes :=
  match conn.tls with
  | none => .ok conn.ws.pendingTx
  | some tls =>
      match if conn.ws.pendingTx.isEmpty then (tls, [], .ok ())
          else tls.egressPlaintext conn.ws.pendingTx with
      | (_, _, .error e) => .error (.tls e)
      | (tls, first, .ok ()) =>
          match tls.egressPlaintext [] with
          | (_, _, .error e) => .error (.tls e)
          | (_, second, .ok ()) => .ok (first ++ second)

/-- Everything staged is one piece, and nothing is left in the stages before. -/
structure StagedAs (conn : ConnectionState) (bytes : Bytes) : Prop where
  head : conn.sendHead = 0
  buf : conn.sendBuf = bytes
  merged : conn.tlsPendingOut = []
  taken : conn.ws.pendingTx = []

theorem StagedAs.unsent {conn : ConnectionState} {bytes : Bytes} (staged : conn.StagedAs bytes) :
    conn.unsent = bytes := by
  simp [ConnectionState.unsent, staged.head, staged.buf, staged.merged]

theorem compactSend_spec (conn : ConnectionState) :
    conn.compactSend.sendHead = 0 ∧
      conn.compactSend.sendBuf = conn.sendBuf.drop conn.sendHead := by
  simp only [compactSend, SendQueue.compactSendBufIfNeeded]
  split
  next first => exact ⟨first, by simp [first]⟩
  next =>
    split
    next all => exact ⟨rfl, by simp [SendQueue.replace, all]⟩
    next => exact ⟨rfl, rfl⟩

theorem mergeTlsPendingOut_spec (conn : ConnectionState) :
    conn.mergeTlsPendingOut.sendHead = conn.sendHead ∧
      conn.mergeTlsPendingOut.sendBuf = conn.sendBuf ++ conn.tlsPendingOut ∧
      conn.mergeTlsPendingOut.tlsPendingOut = [] ∧
      conn.mergeTlsPendingOut.ws = conn.ws ∧ conn.mergeTlsPendingOut.tls = conn.tls := by
  unfold mergeTlsPendingOut
  split
  next empty =>
    rw [List.isEmpty_iff] at empty
    exact ⟨rfl, by simp [empty], empty, rfl, rfl⟩
  next => exact ⟨rfl, rfl, rfl, rfl, rfl⟩

/-- Nothing pending adds nothing. -/
theorem stageWs_spec (conn : ConnectionState) (bytes : Bytes)
    (nothing : conn.ws.pendingTx = [] → bytes = []) :
    (conn.stageWs bytes).sendHead = conn.sendHead ∧
      (conn.stageWs bytes).sendBuf = conn.sendBuf ++ bytes ∧
      (conn.stageWs bytes).tlsPendingOut = conn.tlsPendingOut ∧
      (conn.stageWs bytes).ws.pendingTx = [] := by
  unfold stageWs
  split
  next empty =>
    rw [List.isEmpty_iff] at empty
    exact ⟨rfl, by simp [nothing empty], rfl, empty⟩
  next pending =>
    rw [List.isEmpty_iff] at pending
    exact ⟨rfl, rfl, rfl, TxQueue.pendingTx_ackTx_all conn.ws.tx pending⟩

/-- Staging appends what the layers make of the pending bytes, or fails as they do. -/
theorem stageSend_spec (conn : ConnectionState) :
    match conn.egress with
    | .error e => conn.stageSend.2 = .error e
    | .ok bytes => conn.stageSend.2 = .ok () ∧ conn.stageSend.1.StagedAs (conn.unsent ++ bytes) := by
  obtain ⟨head, buf⟩ := conn.compactSend_spec
  obtain ⟨head', buf', merged, ws, tls⟩ := conn.compactSend.mergeTlsPendingOut_spec
  have pending : conn.compactSend.mergeTlsPendingOut.sendBuf = conn.unsent := by
    rw [buf', buf]
    rfl
  have first : conn.compactSend.mergeTlsPendingOut.sendHead = 0 := head'.trans head
  have sameWs : conn.compactSend.mergeTlsPendingOut.ws = conn.ws := ws
  have sameTls : conn.compactSend.mergeTlsPendingOut.tls = conn.tls := tls
  unfold egress stageSend
  dsimp only
  generalize conn.compactSend.mergeTlsPendingOut = conn₁ at pending first merged sameWs sameTls
  rw [sameTls]
  cases conn.tls with
  | none =>
      obtain ⟨head₂, buf₂, merged₂, taken⟩ := conn₁.stageWs_spec conn₁.ws.pendingTx id
      dsimp only
      rw [← sameWs]
      exact ⟨rfl, head₂.trans first, by rw [buf₂, pending], merged₂.trans merged, taken⟩
  | some tls =>
      unfold stageTls
      dsimp only
      rw [sameWs]
      generalize encrypted : (if conn.ws.pendingTx.isEmpty = true then (tls, [], Except.ok ())
        else tls.egressPlaintext conn.ws.pendingTx) = outcome
      obtain ⟨tls₁, ciphertext, result⟩ := outcome
      cases result with
      | error e => rfl
      | ok done =>
          have nothing : conn₁.ws.pendingTx = [] → ciphertext = [] := by
            intro empty
            rw [sameWs] at empty
            simp only [empty, List.isEmpty_nil, if_true, Prod.mk.injEq] at encrypted
            exact encrypted.2.1.symm
          obtain ⟨head₂, buf₂, merged₂, taken⟩ := conn₁.stageWs_spec ciphertext nothing
          dsimp only
          generalize tls₁.egressPlaintext [] = own
          obtain ⟨tls₂, more, result⟩ := own
          cases result with
          | error e => rfl
          | ok done =>
              refine ⟨rfl, head₂.trans first, ?_, merged₂.trans merged, taken⟩
              show (conn₁.stageWs ciphertext).sendBuf ++ more = _
              rw [buf₂, pending, List.append_assoc]

end ConnectionState

end Talaris
