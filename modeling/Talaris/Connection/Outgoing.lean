import Talaris.Connection.Outbound
import Talaris.Connection.Connect

/-!
# The line of outgoing bytes

Every byte for the kernel is produced at one end, by the WebSocket client or by rustls, and
leaves at the other, from the front of the send buffer.  In between it passes through up to
three buffers.  No step of a connection but a Send completion takes anything out of the line,
and what a step adds stands behind what was there (`Produces`).
-/

namespace Talaris

open Talaris.Ws

namespace ConnectionState

section Line

variable [Rustls]

/-- The bytes in the line, oldest first. -/
def waiting (conn : ConnectionState) : Bytes :=
  conn.unsent ++
    match conn.tls with
    | none => conn.ws.pendingTx
    | some tls => tls.conn.sendable

/-- What goes into the line on the way to a later state: what the client writes, or what rustls
emits. -/
def Puts (conn : ConnectionState) (bytes : Bytes) (conn' : ConnectionState) : Prop :=
  match conn.tls, conn'.tls with
  | none, none => conn'.ws.written = conn.ws.written ++ bytes
  | some tls, some tls' => Rustls.Emits tls.conn.session bytes tls'.conn.session
  | _, _ => False

/-- What a step puts into the line goes to its end. -/
def Produces (conn conn' : ConnectionState) : Prop :=
  conn.ws.InUse → conn'.ws.InUse ∧ ∃ bytes,
    conn'.waiting = conn.waiting ++ bytes ∧ conn.Puts bytes conn'

/-- `sent` has left the line, and the line holds the rest of all that was put into it. -/
structure Line (conn : ConnectionState) (sent : Bytes) : Prop where
  plain : conn.tls = none → conn.ws.written = sent ++ conn.waiting
  secure : ∀ tls, conn.tls = some tls → ∀ record, Rustls.Records record →
    record tls.conn.session = sent ++ conn.waiting

variable {conn conn' conn'' : ConnectionState}

theorem Puts.nothing (tls : conn'.tls = conn.tls) (written : conn'.ws.written = conn.ws.written) :
    conn.Puts [] conn' := by
  unfold Puts
  rw [tls]
  cases conn.tls with
  | none => exact written.trans (List.append_nil _).symm
  | some tls => exact .nothing

theorem Puts.trans {bytes more : Bytes} (first : conn.Puts bytes conn')
    (second : conn'.Puts more conn'') : conn.Puts (bytes ++ more) conn'' := by
  unfold Puts at first second ⊢
  cases before : conn.tls with
  | none =>
      cases between : conn'.tls with
      | some tls => simp [before, between] at first
      | none =>
          cases after : conn''.tls with
          | some tls => simp [between, after] at second
          | none =>
              simp only [before, between, after] at first second ⊢
              rw [second, first, List.append_assoc]
  | some tls =>
      cases between : conn'.tls with
      | none => simp [before, between] at first
      | some tls' =>
          cases after : conn''.tls with
          | none => simp [between, after] at second
          | some tls'' =>
              simp only [before, between, after] at first second ⊢
              exact first.trans second

theorem Produces.trans (first : conn.Produces conn') (second : conn'.Produces conn'') :
    conn.Produces conn'' := by
  intro inUse
  obtain ⟨inUse', bytes, waiting, put⟩ := first inUse
  obtain ⟨inUse'', more, waiting', put'⟩ := second inUse'
  refine ⟨inUse'', bytes ++ more, ?_, put.trans put'⟩
  rw [waiting', waiting, List.append_assoc]

/-- A step that only adds to the line takes nothing out. -/
theorem Line.produces {sent : Bytes} (line : conn.Line sent) (produces : conn.Produces conn')
    (inUse : conn.ws.InUse) : conn'.Line sent := by
  obtain ⟨-, bytes, waiting, put⟩ := produces inUse
  unfold Puts at put
  constructor
  · intro plain'
    cases before : conn.tls with
    | some tls => simp [before, plain'] at put
    | none =>
        simp only [before, plain'] at put
        rw [put, line.plain before, waiting, List.append_assoc]
  · intro tls' secured' record records
    cases before : conn.tls with
    | none => simp [before, secured'] at put
    | some tls =>
        simp only [before, secured'] at put
        rw [records.emits put, line.secure tls before record records, waiting, List.append_assoc]

/-- The line alone decides. -/
theorem produces_of_line (buf : conn'.sendBuf = conn.sendBuf) (head : conn'.sendHead = conn.sendHead)
    (pendingOut : conn'.tlsPendingOut = conn.tlsPendingOut) (tls : conn'.tls = conn.tls)
    (ws : conn'.ws = conn.ws) : conn.Produces conn' := by
  intro inUse
  refine ⟨ws ▸ inUse, [], ?_, .nothing tls (congrArg WsClient.written ws)⟩
  simp only [waiting, unsent, buf, head, pendingOut, tls, ws, List.append_nil]

theorem produces_of_same (queue : conn'.toSendQueue = conn.toSendQueue)
    (pendingOut : conn'.tlsPendingOut = conn.tlsPendingOut) (tls : conn'.tls = conn.tls)
    (ws : conn'.ws = conn.ws) : conn.Produces conn' :=
  produces_of_line (congrArg SendQueue.sendBuf queue) (congrArg SendQueue.sendHead queue) pendingOut
    tls ws

theorem Produces.refl (conn : ConnectionState) : conn.Produces conn :=
  produces_of_same rfl rfl rfl rfl

/-! ## Staging -/

theorem compactSend_produces (conn : ConnectionState) : conn.Produces conn.compactSend := by
  obtain ⟨head, buf⟩ := conn.compactSend_spec
  refine fun inUse => ⟨inUse, [], ?_, .nothing rfl rfl⟩
  simp only [waiting, unsent, head, buf, List.drop_zero, List.append_nil]
  rfl

theorem mergeTlsPendingOut_produces (conn : ConnectionState) (first : conn.sendHead = 0) :
    conn.Produces conn.mergeTlsPendingOut := by
  obtain ⟨head, buf, merged, ws, tls⟩ := conn.mergeTlsPendingOut_spec
  refine fun inUse => ⟨ws ▸ inUse, [], ?_, .nothing tls (congrArg WsClient.written ws)⟩
  simp only [waiting, unsent, head, first, buf, merged, ws, tls, List.drop_zero, List.append_nil]

/-- rustls goes on, and what it hands over is buffered. -/
theorem produces_of_serves {tls tls' : TlsAdapter}
    {bytes : Bytes} (secured : conn.tls = some tls) (serves : tls.Serves bytes tls')
    (inUse : conn.ws.InUse → conn'.ws.InUse) (secured' : conn'.tls = some tls')
    (buffered : conn'.unsent = conn.unsent ++ bytes) : conn.Produces conn' := by
  obtain ⟨emitted, emits, handed⟩ := serves
  refine fun used => ⟨inUse used, emitted, ?_, ?_⟩
  · simp only [waiting, buffered, secured', secured, List.append_assoc, handed]
  · simp only [Puts, secured', secured]
    exact emits

variable [AcceptDigest]

theorem stageWs_inUse (conn : ConnectionState) (bytes : Bytes) (inUse : conn.ws.InUse) :
    (conn.stageWs bytes).ws.InUse := by
  unfold stageWs
  split
  next => exact inUse
  next => exact (WsClient.ackTx_all inUse).1

/-- The client's bytes go over as they are. -/
theorem stageWs_produces (conn : ConnectionState) (plain : conn.tls = none)
    (first : conn.sendHead = 0) (merged : conn.tlsPendingOut = []) :
    conn.Produces (conn.stageWs conn.ws.pendingTx) := by
  intro inUse
  unfold stageWs
  split
  next => exact ⟨inUse, [], by simp, .nothing rfl rfl⟩
  next =>
    obtain ⟨inUse', taken, written⟩ := WsClient.ackTx_all inUse
    refine ⟨inUse', [], ?_, .nothing rfl written⟩
    simp only [waiting, unsent, extendSend, SendQueue.extend, SendQueue.replace, plain, first,
      merged, taken, List.drop_zero, List.append_nil]

/-- The client's bytes go through rustls, which adds its own. -/
theorem stageTls_produces (conn : ConnectionState)
    {tls : TlsAdapter} (secured : conn.tls = some tls) (first : conn.sendHead = 0)
    (merged : conn.tlsPendingOut = []) : conn.Produces (conn.stageTls tls).1 := by
  unfold stageTls
  generalize encrypted : (if conn.ws.pendingTx.isEmpty = true then (tls, [], Except.ok ())
    else tls.egressPlaintext conn.ws.pendingTx) = outcome
  have serves : tls.Serves outcome.2.1 outcome.1 := by
    rw [← encrypted]
    split
    next => exact .nothing tls
    next => exact tls.egressPlaintext_serves _
  have nothing : conn.ws.pendingTx = [] → outcome.2.1 = [] := by
    intro empty
    rw [← encrypted, if_pos (by simp [empty])]
  have refused (e : TlsError) : outcome.2.2 = .error e → outcome.2.1 = [] := by
    rw [← encrypted]
    split
    next => simp
    next => exact tls.egressPlaintext_failed _
  obtain ⟨tls₁, ciphertext, result⟩ := outcome
  cases result with
  | error e =>
      obtain rfl : ciphertext = [] := refused e rfl
      exact produces_of_serves secured serves id rfl (List.append_nil _).symm
  | ok done =>
      obtain ⟨head, buf, still, -⟩ := conn.stageWs_spec ciphertext nothing
      have staged : conn.Produces { conn.stageWs ciphertext with tls := some tls₁ } := by
        refine produces_of_serves secured serves (stageWs_inUse conn ciphertext) rfl ?_
        show (conn.stageWs ciphertext).unsent = _
        simp only [unsent, head, buf, still, first, merged, List.drop_zero, List.append_nil]
      have own := tls₁.egressPlaintext_serves []
      have refused (e : TlsError) := tls₁.egressPlaintext_failed (e := e) []
      dsimp only
      generalize conn.stageWs ciphertext = conn₁ at head still staged ⊢
      generalize tls₁.egressPlaintext [] = outcome at own refused
      obtain ⟨tls₂, more, result⟩ := outcome
      have extended (conn₂ : ConnectionState) (ws : conn₂.ws = conn₁.ws)
          (tls : conn₂.tls = some tls₂) (unsent : conn₂.unsent = conn₁.unsent ++ more) :
          conn.Produces conn₂ :=
        staged.trans (produces_of_serves rfl own (fun used => ws ▸ used) tls unsent)
      cases result with
      | error e =>
          obtain rfl : more = [] := refused e rfl
          exact extended _ rfl rfl (List.append_nil _).symm
      | ok done =>
          refine extended _ rfl rfl ?_
          simp only [unsent, extendSend, SendQueue.extend, SendQueue.replace, head, first, still,
            merged, List.drop_zero, List.append_nil]

theorem stageSend_produces (conn : ConnectionState) :
    conn.Produces conn.stageSend.1 := by
  have compacted : conn.Produces conn.compactSend := conn.compactSend_produces
  obtain ⟨head, -⟩ := conn.compactSend_spec
  have merged := compacted.trans (conn.compactSend.mergeTlsPendingOut_produces head)
  obtain ⟨head', -, empty, -⟩ := conn.compactSend.mergeTlsPendingOut_spec
  have first : conn.compactSend.mergeTlsPendingOut.sendHead = 0 := head'.trans head
  unfold stageSend
  dsimp only
  generalize conn.compactSend.mergeTlsPendingOut = conn₁ at merged empty first
  cases secured : conn₁.tls with
  | none => exact merged.trans (conn₁.stageWs_produces secured first empty)
  | some tls => exact merged.trans (conn₁.stageTls_produces secured first empty)

/-- The submit phase only moves bytes on. -/
theorem trySubmitSend_produces (conn : ConnectionState)
    (proactor : Proactor) : conn.Produces (conn.trySubmitSend proactor).1 := by
  have staged := conn.stageSend_produces
  unfold trySubmitSend
  split
  next => exact .refl conn
  next =>
    split
    next conn₁ e stages =>
      rw [stages] at staged
      exact staged
    next conn₁ stages =>
      rw [stages] at staged
      split
      next => exact staged
      next =>
        split
        next => exact staged
        next => exact staged.trans (produces_of_line rfl rfl rfl rfl rfl)

omit [AcceptDigest] in
theorem tryRearmMultishot_produces (conn : ConnectionState) (proactor : Proactor) :
    conn.Produces (conn.tryRearmMultishot proactor).1 := by
  obtain ⟨result, same⟩ | ⟨-, ring, -, armed⟩ := conn.tryRearmMultishot_cases proactor
  · rw [same]
    exact .refl conn
  · rw [armed]
    exact produces_of_same rfl rfl rfl rfl

/-! ## Completions -/

/-- Calls of the client and moves of the TLS layer. -/
theorem produces_of_moves (queue : conn'.toSendQueue = conn.toSendQueue) (uses : conn.ws.Uses conn'.ws)
    (moves : SecureMove conn.tls conn.tlsPendingOut conn'.tls conn'.tlsPendingOut) :
    conn.Produces conn' := by
  intro inUse
  obtain ⟨inUse', bytes, pending, written⟩ := uses.grows inUse
  refine ⟨inUse', ?_⟩
  have front : conn'.sendBuf.drop conn'.sendHead = conn.sendBuf.drop conn.sendHead := by rw [queue]
  unfold waiting Puts unsent
  rw [front]
  generalize conn.tls = tls, conn'.tls = tls', conn.tlsPendingOut = pendingOut,
    conn'.tlsPendingOut = pendingOut' at moves
  cases moves with
  | same =>
      cases tls with
      | none => exact ⟨bytes, by simp only [pending, List.append_assoc], written⟩
      | some tls => exact ⟨[], by simp, .nothing⟩
  | @served tls tls' bytes _ serves =>
      obtain ⟨emitted, emits, handed⟩ := serves
      refine ⟨emitted, ?_, emits⟩
      simp only [List.append_assoc, handed]

theorem Advances.produces (advances : conn.Advances conn') :
    conn.Produces conn' :=
  produces_of_moves advances.queue advances.ws advances.tls

end Line

end ConnectionState

end Talaris
