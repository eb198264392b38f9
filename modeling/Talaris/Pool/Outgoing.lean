import Talaris.Connection.Outgoing
import Talaris.Pool.Lifetime

/-!
# Outbound bytes

What a connection sends passes through the buffers of the client, of rustls and of the driver,
and leaves through one Send at a time.  The kernel may accept any part of it.  Seen from the
kernel the bytes come once and in order (`sent_once_in_order`).
-/

namespace Talaris

open Talaris.Basis
open Talaris.Ws

section Steps

variable [Rustls] [AcceptDigest]

omit [Rustls] [AcceptDigest] in
/-- Bytes go from the front. -/
theorem SendQueue.sent_spec (queue : SendQueue) (n : Nat) :
    (queue.sent n).sendBuf.drop (queue.sent n).sendHead =
        (queue.sendBuf.drop queue.sendHead).drop n ∧
      (queue.sent n).sendInflight = queue.sendInflight := by
  rw [List.drop_drop]
  unfold SendQueue.sent
  split
  next all =>
    refine ⟨?_, rfl⟩
    rw [List.drop_of_length_le all]
    rfl
  next => exact ⟨rfl, rfl⟩

namespace ConnectionState

omit [AcceptDigest] in
theorem produces_settle {α : Type} {conn conn' : ConnectionState}
    (produces : conn.Produces conn') (result : Except ConnectionError α) :
    conn.Produces (conn'.settle result) := by
  obtain ⟨state, same⟩ := conn'.settle_eq result
  rw [same]
  exact produces.trans (produces_of_same rfl rfl rfl rfl)

theorem onConnectCqe_produces (conn : ConnectionState)
    (proactor : Proactor) (c : Completion) :
    conn.Produces (conn.onConnectCqe proactor c).1 := by
  rcases conn.onConnectCqe_cases proactor c with ⟨_, _, _, -, refused⟩ |
    ⟨-, -, -, -, _, stuck⟩ | ⟨-, -, -, conn', _, connected, stands⟩
  · rw [refused]
    exact .refl conn
  · rw [stuck]
    exact .refl conn
  · rw [stands]
    have moves : SecureMove conn.tls conn.tlsPendingOut conn'.tls conn'.tlsPendingOut := by
      rw [connected.tls, connected.pendingOut]
      exact .same _ _
    refine produces_of_moves connected.queue ?_ moves
    obtain same | begun := connected.reader
    · have ws : conn'.ws = conn.ws := congrArg Reader.ws same
      rw [ws]
      exact .refl _
    · have ws : conn'.ws = conn.ws.beginHandshake.1 := congrArg Reader.ws begun
      rw [ws]
      exact conn.ws.beginHandshake_uses

/-- A completion that is not of a send. -/
theorem handleCompletionFor_produces (conn : ConnectionState)
    (proactor : Proactor) (pump : PumpKind) {c : Completion} (other : c.isSend = false) :
    conn.Produces (conn.handleCompletionFor proactor pump c).2.conn := by
  unfold handleCompletionFor
  cases known : c.userData.kind with
  | none => exact .refl conn
  | some kind =>
      have notSend : kind ≠ .send := by
        rintro rfl
        simp [Completion.isSend, known] at other
      dsimp only
      split
      next closed =>
        have frozen := conn.discardCompletionAfterClosed_frozen closed kind c
        exact produces_of_same (conn.discardCompletionAfterClosed_queue notSend c) frozen.pendingOut
          frozen.tls (congrArg Reader.ws frozen.reader)
      next =>
        cases kind with
        | connect => exact conn.onConnectCqe_produces proactor c
        | send => exact absurd rfl notSend
        | recv =>
            simp only [dispatchCompletion, recvHandler_eq]
            exact (conn.onRecvCqeFor_advances pump c).produces
        | close => exact produces_of_same rfl rfl rfl rfl
        | nop => exact .refl conn

omit [AcceptDigest] in
/-- The completion of a send takes bytes from the front. -/
theorem onSendCqe_spec (conn : ConnectionState) (c : Completion) :
    let conn' := (conn.onSendCqe c).1
    conn'.ws = conn.ws ∧ conn'.tls = conn.tls ∧ conn'.tlsPendingOut = conn.tlsPendingOut ∧
      conn'.sendInflight = false ∧
      (0 ≤ c.result →
        conn'.sendBuf.drop conn'.sendHead = (conn.sendBuf.drop conn.sendHead).drop c.result.toNat) := by
  unfold onSendCqe
  dsimp only
  cases answered : c.toResult with
  | error e =>
      refine ⟨rfl, rfl, rfl, rfl, fun sound => ?_⟩
      rw [Completion.toResult, if_pos sound] at answered
      cases answered
  | ok n =>
      have taken : 0 ≤ c.result → c.result.toNat = n := by
        intro sound
        rw [Completion.toResult, if_pos sound, Except.ok.injEq] at answered
        exact answered
      obtain ⟨front, idle⟩ := SendQueue.sent_spec { conn.toSendQueue with sendInflight := false } n
      refine ⟨rfl, rfl, rfl, idle, fun sound => ?_⟩
      rw [taken sound]
      exact front

theorem handleCompletionFor_sent (conn : ConnectionState) (active : conn.state ≠ .closed)
    (proactor : Proactor) (pump : PumpKind) {c : Completion} (isSend : c.isSend = true) :
    (conn.handleCompletionFor proactor pump c).2.conn = (conn.onSendCqe c).1 := by
  have known : c.userData.kind = some .send := by simpa [Completion.isSend] using isSend
  simp only [handleCompletionFor, known, if_neg active, dispatchCompletion, silently]

end ConnectionState

open ConnectionState in
/-- A step that takes no Send completion only adds to the line. -/
theorem ConnStep.produces
    {proactor proactor' : Proactor} {conn conn' : ConnectionState} {syncs : Bool}
    {consumed : List Completion} {items : List SinkItem}
    (stepped : ConnStep proactor conn syncs consumed proactor' conn' items)
    (others : ∀ c ∈ consumed, c.isSend = false) : conn.Produces conn' := by
  cases stepped with
  | @submitted conn₁ _ proactor₁ _ sent armed =>
      have first := conn.trySubmitSend_produces proactor
      have second : conn₁.Produces _ := conn₁.tryRearmMultishot_produces proactor₁
      rw [sent] at first
      rw [armed] at second
      exact first.trans second
  | sendFailed sent =>
      have first := conn.trySubmitSend_produces proactor
      rw [sent] at first
      exact first.trans (produces_of_same rfl rfl rfl rfl)
  | @rearmFailed conn₁ _ proactor₁ _ _ sent armed =>
      have first := conn.trySubmitSend_produces proactor
      have second : conn₁.Produces _ := conn₁.tryRearmMultishot_produces proactor₁
      rw [sent] at first
      rw [armed] at second
      exact (first.trans second).trans (produces_of_same rfl rfl rfl rfl)
  | completed pump c handled =>
      have produces := conn.handleCompletionFor_produces proactor pump (others c (by simp))
      rw [handled] at produces
      exact produces_settle produces _
  | ran pump =>
      exact produces_settle ((conn.handlePlainRecvDataBatchFor_advances pump consumed).produces) _
  | skipped => exact produces_of_same rfl rfl rfl rfl
  | polled _ polls =>
      have uses := conn.ws.pollAll_uses
      rw [polls] at uses
      rw [syncs_eq]
      exact produces_of_moves rfl uses (.same _ _)
  | pollFailed _ polls =>
      have uses := conn.ws.pollAll_uses
      rw [polls] at uses
      rw [syncs_eq]
      exact produces_of_moves rfl uses (.same _ _)
  | driven _ _ polls =>
      have uses := conn.ws.pollEvent_uses
      rw [polls] at uses
      rw [syncs_eq]
      exact produces_of_moves rfl uses (.same _ _)
  | driveFailed _ polls =>
      have uses := conn.ws.pollEvent_uses
      rw [polls] at uses
      exact produces_of_moves rfl uses (.same _ _)
  | driveSynced =>
      rw [syncWsOpenState_eq]
      exact produces_of_same rfl rfl rfl rfl
  | sent what =>
      have uses : conn.ws.Uses (what.run conn.ws).1 := by
        cases what with
        | text payload => exact conn.ws.call_uses (.sendText payload) (by simp)
        | binary payload => exact conn.ws.call_uses (.sendBinary payload) (by simp)
        | ping payload => exact conn.ws.call_uses (.sendPing payload) (by simp)
        | pong payload => exact conn.ws.call_uses (.sendPong payload) (by simp)
      exact produces_of_moves rfl uses (.same _ _)
  | closeRefused code reason _ refused =>
      have uses := conn.ws.call_uses (.sendClose code reason) (by simp)
      simp only [WsClient.call, refused] at uses
      exact produces_of_moves rfl uses (.same _ _)
  | closing code reason _ _ accepted =>
      have uses := conn.ws.call_uses (.sendClose code reason) (by simp)
      simp only [WsClient.call, accepted] at uses
      exact produces_of_moves rfl uses (.same _ _)

open ConnectionState in
/-- A step that takes a Send completion takes nothing else and leaves the client alone. -/
theorem ConnStep.sent_only {proactor proactor' : Proactor} {conn conn' : ConnectionState}
    {syncs : Bool} {consumed : List Completion} {items : List SinkItem}
    (stepped : ConnStep proactor conn syncs consumed proactor' conn' items) {c : Completion}
    (member : c ∈ consumed) (isSend : c.isSend = true) :
    consumed = [c] ∧ conn'.ws = conn.ws ∧ (conn.state ≠ .closed →
      ∃ result : Except ConnectionError Nat, conn' = (conn.onSendCqe c).1.settle result) := by
  cases stepped with
  | @completed _ handled pump c' handles =>
      obtain rfl := List.mem_singleton.mp member
      obtain ⟨state, settled⟩ := handled.conn.settle_eq handled.result
      refine ⟨rfl, ?_, fun active => ⟨handled.result, ?_⟩⟩
      · have same : handled.conn.ws = conn.ws := by
          by_cases closed : conn.state = .closed
          · have frozen := (conn.handleCompletionFor_closed closed proactor pump c).2.2
            rw [handles] at frozen
            exact congrArg Reader.ws frozen.reader
          · have sent := conn.handleCompletionFor_sent closed proactor pump isSend
            rw [handles] at sent
            rw [sent]
            exact (conn.onSendCqe_spec c).1
        rw [settled]
        exact same
      · have sent := conn.handleCompletionFor_sent active proactor pump isSend
        rw [handles] at sent
        rw [← sent]
  | ran pump _ nonempty able =>
      have passed := able c member
      simp only [canHandlePlainRecvDataBatch, Bool.and_eq_true, decide_eq_true_eq] at passed
      simp [Completion.isSend, passed.1.1.2] at isSend
  | submitted | sendFailed | rearmFailed | skipped | polled | pollFailed | driven | driveFailed
  | driveSynced | sent | closeRefused | closing => cases member

theorem ConnStep.inUse {proactor proactor' : Proactor} {conn conn' : ConnectionState}
    {syncs : Bool} {consumed : List Completion} {items : List SinkItem}
    (stepped : ConnStep proactor conn syncs consumed proactor' conn' items)
    (inUse : conn.ws.InUse) : conn'.ws.InUse := by
  by_cases sends : ∃ c ∈ consumed, c.isSend = true
  · obtain ⟨c, member, isSend⟩ := sends
    obtain ⟨-, ws, -⟩ := stepped.sent_only member isSend
    rw [ws]
    exact inUse
  · refine (stepped.produces ?_ inUse).1
    intro c member
    simpa using fun isSend => sends ⟨c, member, isSend⟩

/-- The client of every connection is in use. -/
theorem System.clients_inUse {admits : System → PoolLabel → Prop} {sys : System}
    (reached : poolMachine.Reach admits sys) :
    ∀ i conn, sys.pool.connAt i = some conn → conn.ws.InUse := by
  induction reached with
  | start initial =>
      obtain ⟨_, _, _, _, rfl⟩ := System.initial_spec initial
      simp [Pool.connAt]
  | @next sys label reached _ ih =>
      have slots := System.slots_reach reached
      have change := System.change slots label
      generalize poolMachine.step sys label = next at change
      obtain ⟨sys', out⟩ := next
      cases change with
      | kernel => exact ih
      | step _ _ found _ _ _ _ stepped =>
          intro j now here
          rcases Pool.connAt_update_cases found here with ⟨-, rfl⟩ | ⟨-, there⟩
          · exact stepped.inUse (ih _ _ found)
          · exact ih j now there
      | refused =>
          intro j now here
          rw [Pool.connAt_stocked] at here
          exact ih j now here
      | seated _ _ _ _ _ _ _ made _ _ _ inside =>
          intro j now here
          rcases Pool.connAt_occupied_cases inside here with ⟨-, rfl⟩ | ⟨-, there⟩
          · exact WsClient.newClient_inUse made.ws
          · rw [Pool.connAt_stocked] at there
            exact ih j now there
      | retired _ _ found =>
          intro j now here
          exact ih j now (Pool.connAt_vacated_cases found here).2

/-- A connection keeps its token as long as it is in its slot. -/
theorem System.token_kept {sys : System} (slots : Slots sys.pool sys.handles) (label : PoolLabel)
    {i : Nat} {conn conn' : ConnectionState} (found : sys.pool.connAt i = some conn)
    (found' : (poolMachine.step sys label).1.pool.connAt i = some conn') :
    conn'.token = conn.token := by
  have untouched (same : sys.pool.connAt i = some conn') : conn'.token = conn.token := by
    rw [found, Option.some.injEq] at same
    rw [same]
  have change := System.change slots label
  generalize poolMachine.step sys label = next at change found'
  obtain ⟨sys', out⟩ := next
  cases change with
  | kernel => exact untouched found'
  | step _ _ there _ _ _ _ stepped =>
      rcases Pool.connAt_update_cases there found' with ⟨rfl, rfl⟩ | ⟨-, same⟩
      · rw [found, Option.some.injEq] at there
        subst there
        exact congrArg (fun endpoint => endpoint.identity.token) stepped.effect.endpoint
      · exact untouched same
  | refused =>
      rw [Pool.connAt_stocked] at found'
      exact untouched found'
  | seated _ _ _ _ _ _ _ _ _ _ _ inside vacant =>
      rcases Pool.connAt_occupied_cases inside found' with ⟨rfl, -⟩ | ⟨-, same⟩
      · rw [vacant] at found
        cases found
      · rw [Pool.connAt_stocked] at same
        exact untouched same
  | retired _ _ there => exact untouched (Pool.connAt_vacated_cases there found').2

end Steps

end Talaris
