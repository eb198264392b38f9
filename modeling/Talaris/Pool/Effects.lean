import Talaris.Connection.Connect
import Talaris.Pool.Steps

/-!
# Resources of a connection step

The steps of a connection differ in many ways, but few of them touch what the kernel can
see: a Send completion gives the send buffer back, the submit phase pushes at most one send
and one receive, and a Connect completion works on the table of rings.
-/

namespace Talaris

open Talaris.Ws

section Effects

variable [Rustls]

/-- A step that leaves the socket, the send buffer and the ring alone. -/
structure ConnectionState.Keeps (conn conn' : ConnectionState) : Prop where
  endpoint : conn'.toEndpoint = conn.toEndpoint
  queue : conn'.toSendQueue = conn.toSendQueue
  ring : conn'.bufRing.map BufferRing.tag = conn.bufRing.map BufferRing.tag

/-- The completion of a send. -/
def Completion.isSend (c : Completion) : Bool := c.userData.kind = some .send

/-- What a submit phase pushes. -/
structure ConnectionState.Pushes (conn conn' : ConnectionState) (sends recvs : List Sqe) :
    Prop where
  endpoint : conn'.toEndpoint = conn.toEndpoint
  ring : conn'.bufRing = conn.bufRing
  busy : conn.sendInflight = true → sends = [] ∧ conn'.toSendQueue = conn.toSendQueue
  free : conn.sendInflight = false →
    (sends = [] ∧ conn'.sendInflight = false) ∨ (sends = [conn'.sendSqe] ∧ conn'.sendInflight = true)
  armed : recvs = [] ∨ ∃ ring, conn.bufRing = some ring ∧ recvs = [conn.recvSqe ring.bgid]

/-- What a step of a connection does to the kernel's view of it. -/
inductive ConnEffect (proactor : Proactor) (conn : ConnectionState) :
    List Completion → Proactor → ConnectionState → Prop where
  | kept {consumed : List Completion} {conn' : ConnectionState} :
      conn.Keeps conn' → (∀ c ∈ consumed, c.isSend = false) →
      ConnEffect proactor conn consumed proactor conn'
  | sent {conn' : ConnectionState} (c : Completion) :
      c.isSend = true → conn'.toEndpoint = conn.toEndpoint → conn'.sendInflight = false →
      conn'.bufRing = conn.bufRing → ConnEffect proactor conn [c] proactor conn'
  | pushed {conn' : ConnectionState} {sends recvs : List Sqe} :
      conn.Pushes conn' sends recvs →
      ConnEffect proactor conn [] { proactor with sq := proactor.sq ++ sends ++ recvs } conn'
  | refused {conn' : ConnectionState} (c : Completion) (nextRingMem calls : Nat) :
      c.userData.kind = some .connect → conn.state ≠ .closed →
      proactor.nextRingMem ≤ nextRingMem → conn.Keeps conn' →
      conn'.bufRing = conn.bufRing →
      ConnEffect proactor conn [c] { proactor with nextRingMem, calls } conn'
  | stuck {conn' : ConnectionState} (c : Completion) :
      c.userData.kind = some .connect → conn.state ≠ .closed → 0 ≤ c.result →
      conn.canRegister proactor = true → conn.armingFails proactor = true →
      proactor.faults (proactor.calls + 1) ≠ none → conn.Keeps conn' →
      conn'.bufRing = conn.bufRing →
      ConnEffect proactor conn [c]
        { proactor with
          nextRingMem := proactor.nextRingMem + 1
          calls := proactor.calls + 2
          registered := proactor.registered ++ [(conn.identity.bgid, proactor.nextRingMem)] } conn'
  | connected {conn' : ConnectionState} {ring : BufferRing} (c : Completion) :
      c.userData.kind = some .connect → conn.state ≠ .closed → 0 ≤ c.result →
      conn.canRegister proactor = true → conn.armingFails proactor = false →
      conn'.toEndpoint = conn.toEndpoint → conn'.toSendQueue = conn.toSendQueue →
      conn'.bufRing = some ring → ring.Registered proactor.nextRingMem conn.identity.bgid →
      ConnEffect proactor conn [c]
        { proactor with
          nextRingMem := proactor.nextRingMem + 1
          calls := proactor.calls + 1
          registered := proactor.registered ++ [(conn.identity.bgid, proactor.nextRingMem)]
          sq := proactor.sq ++ [conn.recvSqe conn.identity.bgid] } conn'

namespace ConnectionState

theorem Keeps.refl (conn : ConnectionState) : conn.Keeps conn := ⟨rfl, rfl, rfl⟩

theorem Advances.keeps [AcceptDigest] {conn conn' : ConnectionState} (advances : conn.Advances conn') :
    conn.Keeps conn' := ⟨advances.endpoint, advances.queue, advances.ring⟩

/-- Only the driver's state differs. -/
theorem settle_eq {α : Type} (conn : ConnectionState) (result : Except ConnectionError α) :
    ∃ state, conn.settle result = { conn with state } := by
  cases result with
  | error e => exact ⟨.closed, rfl⟩
  | ok value => exact ⟨conn.syncedState, conn.syncs_eq⟩

theorem Keeps.settle {α : Type} {conn conn' : ConnectionState} (keeps : conn.Keeps conn')
    (result : Except ConnectionError α) : conn.Keeps (conn'.settle result) := by
  obtain ⟨state, same⟩ := conn'.settle_eq result
  rw [same]
  exact ⟨keeps.endpoint, keeps.queue, keeps.ring⟩

/-- The submit phase of the send side. -/
theorem trySubmitSend_pushes {conn conn₁ : ConnectionState} {proactor proactor₁ : Proactor}
    {result : Except ConnectionError Unit}
    (sent : conn.trySubmitSend proactor = (conn₁, proactor₁, result)) :
    ∃ sends, conn.Pushes conn₁ sends [] ∧
      proactor₁ = { proactor with sq := proactor.sq ++ sends } := by
  rcases conn.trySubmitSend_cases proactor with same | ⟨idle, -, conn₂, _, staged, same⟩ |
    ⟨idle, -, conn₂, staged, same⟩
  · rw [same] at sent
    cases sent
    exact ⟨[], ⟨rfl, rfl, fun _ => ⟨rfl, rfl⟩, fun idle => .inl ⟨rfl, idle⟩, .inl rfl⟩, by simp⟩
  · rw [same] at sent
    cases sent
    refine ⟨[], ⟨staged.endpoint, staged.ring, ?_, ?_, .inl rfl⟩, by simp⟩
    · simp [idle]
    · exact fun _ => .inl ⟨rfl, staged.inflight.trans idle⟩
  · rw [same] at sent
    cases sent
    refine ⟨[conn₂.sendSqe], ⟨staged.endpoint, staged.ring, ?_, ?_, .inl rfl⟩, rfl⟩
    · simp [idle]
    · exact fun _ => .inr ⟨rfl, rfl⟩

/-- The receive side comes after it. -/
theorem Pushes.rearm {conn conn₁ conn₂ : ConnectionState} {proactor proactor₂ : Proactor}
    {sends : List Sqe} {result : Except ConnectionError Unit}
    (pushes : conn.Pushes conn₁ sends [])
    (armed : conn₁.tryRearmMultishot { proactor with sq := proactor.sq ++ sends } =
      (conn₂, proactor₂, result)) :
    ∃ recvs, conn.Pushes conn₂ sends recvs ∧
      proactor₂ = { proactor with sq := proactor.sq ++ sends ++ recvs } := by
  rcases conn₁.tryRearmMultishot_cases { proactor with sq := proactor.sq ++ sends } with
    ⟨_, same⟩ | ⟨-, ring, present, same⟩
  · rw [same] at armed
    cases armed
    exact ⟨[], pushes, by simp⟩
  · rw [same] at armed
    cases armed
    refine ⟨[conn₁.recvSqe ring.bgid], ⟨pushes.endpoint, pushes.ring, pushes.busy, pushes.free, ?_⟩,
      rfl⟩
    refine .inr ⟨ring, pushes.ring ▸ present, ?_⟩
    have endpoint := pushes.endpoint
    simp only [recvSqe, ConnectionState.token]
    rw [endpoint]

theorem Pushes.closed {conn conn₁ : ConnectionState} {sends recvs : List Sqe}
    (pushes : conn.Pushes conn₁ sends recvs) :
    conn.Pushes { conn₁ with state := .closed } sends recvs :=
  ⟨pushes.endpoint, pushes.ring, pushes.busy, pushes.free, pushes.armed⟩

theorem discardCompletionAfterClosed_queue (conn : ConnectionState) {kind : OpKind}
    (other : kind ≠ .send) (c : Completion) :
    (conn.discardCompletionAfterClosed kind c).toSendQueue = conn.toSendQueue := by
  cases kind with
  | recv =>
      simp only [discardCompletionAfterClosed, discardRecvCompletionAfterClosed]
      repeat' split
      all_goals rfl
  | send => exact absurd rfl other
  | close | connect | nop => rfl

section Completed

variable [AcceptDigest]

/-- One completion. -/
theorem handleCompletionFor_effect (conn : ConnectionState) (proactor : Proactor)
    (pump : PumpKind) (c : Completion) :
    ConnEffect proactor conn [c] (conn.handleCompletionFor proactor pump c).1
      ((conn.handleCompletionFor proactor pump c).2.conn.settle
        (conn.handleCompletionFor proactor pump c).2.result) := by
  have single {kind : OpKind} (known : c.userData.kind = some kind) (other : kind ≠ .send) :
      ∀ c' ∈ [c], c'.isSend = false := by
    simp [Completion.isSend, known, other]
  unfold handleCompletionFor
  cases known : c.userData.kind with
  | none =>
      refine .kept ((Keeps.refl conn).settle _) ?_
      simp [Completion.isSend, known]
  | some kind =>
      dsimp only
      split
      next closed =>
        have frozen := conn.discardCompletionAfterClosed_frozen closed kind c
        by_cases sending : kind = .send
        · subst sending
          obtain ⟨state, same⟩ := (conn.discardCompletionAfterClosed .send c).settle_eq
            (.ok 0 : Except ConnectionError Nat)
          rw [same]
          exact .sent c (by simp [Completion.isSend, known]) rfl rfl rfl
        · have queue := conn.discardCompletionAfterClosed_queue sending c
          have keeps : conn.Keeps (conn.discardCompletionAfterClosed kind c) :=
            ⟨frozen.endpoint, queue, frozen.ring⟩
          exact .kept (keeps.settle _) (single known sending)
      next active =>
        cases kind with
        | connect =>
            simp only [dispatchCompletion]
            rcases conn.onConnectCqe_cases proactor c with ⟨mem, calls, e, grows, refused⟩ |
              ⟨accepted, able, unable, fault, e, stuck⟩ |
              ⟨accepted, able, arms, conn', result, connected, stands⟩
            · rw [refused]
              exact .refused c mem calls known active grows ((Keeps.refl conn).settle _) rfl
            · rw [stuck]
              exact .stuck c known active accepted able unable fault ((Keeps.refl conn).settle _) rfl
            · rw [stands]
              obtain ⟨ring, present, registered⟩ := connected.ring
              obtain ⟨state, same⟩ := conn'.settle_eq (result.map fun () => 0)
              simp only [silently]
              rw [same]
              exact .connected c known active accepted able arms connected.endpoint connected.queue
                present registered
        | send =>
            simp only [dispatchCompletion, silently]
            obtain ⟨state, same⟩ := (conn.onSendCqe c).1.settle_eq
              ((conn.onSendCqe c).2.map fun () => 0)
            have sent : (conn.onSendCqe c).1.toEndpoint = conn.toEndpoint ∧
                (conn.onSendCqe c).1.sendInflight = false ∧
                (conn.onSendCqe c).1.bufRing = conn.bufRing := by
              unfold onSendCqe
              dsimp only
              split
              next => exact ⟨rfl, rfl, rfl⟩
              next =>
                refine ⟨rfl, ?_, rfl⟩
                simp only [SendQueue.sent]
                split <;> rfl
            rw [same]
            exact .sent c (by simp [Completion.isSend, known]) sent.1 sent.2.1 sent.2.2
        | recv =>
            simp only [dispatchCompletion, recvHandler_eq]
            exact .kept ((conn.onRecvCqeFor_advances pump c).keeps.settle _) (single known (by decide))
        | close =>
            exact .kept ((conn.advances_closed).keeps.settle _) (single known (by decide))
        | nop => exact .kept ((Keeps.refl conn).settle _) (single known (by decide))

end Completed

end ConnectionState

theorem ConnEffect.endpoint {proactor proactor' : Proactor} {conn conn' : ConnectionState}
    {consumed : List Completion} (effect : ConnEffect proactor conn consumed proactor' conn') :
    conn'.toEndpoint = conn.toEndpoint := by
  cases effect with
  | kept keeps => exact keeps.endpoint
  | sent _ _ same => exact same
  | pushed pushes => exact pushes.endpoint
  | refused _ _ _ _ _ _ keeps => exact keeps.endpoint
  | stuck _ _ _ _ _ _ _ keeps => exact keeps.endpoint
  | connected _ _ _ _ _ _ same => exact same

variable [AcceptDigest]

open ConnectionState in
theorem ConnStep.effect {proactor proactor' : Proactor} {conn conn' : ConnectionState}
    {syncs : Bool} {consumed : List Completion} {items : List SinkItem}
    (stepped : ConnStep proactor conn syncs consumed proactor' conn' items) :
    ConnEffect proactor conn consumed proactor' conn' := by
  have follows (conn' : ConnectionState) (keeps : conn.Keeps conn') :
      ConnEffect proactor conn [] proactor conn'.syncWsOpenState.syncWsCloseState := by
    rw [syncs_eq]
    exact .kept ⟨keeps.endpoint, keeps.queue, keeps.ring⟩ (by simp)
  cases stepped with
  | submitted sent armed =>
      obtain ⟨sends, pushes, rfl⟩ := trySubmitSend_pushes sent
      obtain ⟨recvs, pushes, rfl⟩ := pushes.rearm armed
      exact .pushed pushes
  | sendFailed sent =>
      obtain ⟨sends, pushes, rfl⟩ := trySubmitSend_pushes sent
      have effect : ConnEffect proactor conn [] _ _ := .pushed pushes.closed
      simpa using effect
  | rearmFailed sent armed =>
      obtain ⟨sends, pushes, rfl⟩ := trySubmitSend_pushes sent
      obtain ⟨recvs, pushes, rfl⟩ := pushes.rearm armed
      exact .pushed pushes.closed
  | completed pump c handled =>
      have effect := conn.handleCompletionFor_effect proactor pump c
      rw [handled] at effect
      exact effect
  | ran pump completions nonempty able =>
      refine .kept ((conn.handlePlainRecvDataBatchFor_advances pump consumed).keeps.settle _) ?_
      intro c member
      have passed := able c member
      simp only [canHandlePlainRecvDataBatch, Bool.and_eq_true, decide_eq_true_eq] at passed
      simp [Completion.isSend, passed.1.1.2]
  | skipped => exact .kept ⟨rfl, rfl, rfl⟩ (by simp)
  | polled | pollFailed =>
      rw [syncs_eq]
      exact .kept ⟨rfl, rfl, rfl⟩ (by simp)
  | driven => exact follows _ ⟨rfl, rfl, rfl⟩
  | driveSynced =>
      rw [syncWsOpenState_eq]
      exact .kept ⟨rfl, rfl, rfl⟩ (by simp)
  | driveFailed | sent | closeRefused | closing => exact .kept ⟨rfl, rfl, rfl⟩ (by simp)

end Effects

end Talaris
