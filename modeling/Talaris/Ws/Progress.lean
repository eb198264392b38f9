import Talaris.Ws.Rule

/-!
# The client state only moves forward

Connecting, open, closing, closed: no call takes a client back, whatever it holds in
its buffers.  In particular a client that is open has never failed.
-/

namespace Talaris.Ws

open Talaris.Basis

/-- The order of the states. -/
def ConnState.rank : ConnState → Nat
  | connecting => 0
  | isOpen => 1
  | closing => 2
  | closed => 3

theorem ConnState.rank_le_closed (state : ConnState) : state.rank ≤ ConnState.closed.rank := by
  cases state <;> decide

namespace WsClient

/-- The second client is the first one or has moved forward. -/
def Before (w w' : WsClient) : Prop := w.state.rank ≤ w'.state.rank

theorem Before.refl (w : WsClient) : w.Before w := Nat.le_refl _

theorem Before.trans {w w' w'' : WsClient} (first : w.Before w') (second : w'.Before w'') :
    w.Before w'' := Nat.le_trans first second

theorem before_of_state {w w' : WsClient} (same : w'.state = w.state) : w.Before w' := by
  rw [Before, same]

theorem before_of_closed {w w' : WsClient} (closed : w'.state = .closed) : w.Before w' := by
  rw [Before, closed]
  exact ConnState.rank_le_closed _

/-! ## Sending -/

theorem queueClose_before (w : WsClient) (code : Nat) (reason : String) :
    w.Before (w.queueClose code reason) := by
  unfold queueClose
  split
  next => exact .refl w
  next =>
    dsimp only [writeFrame]
    split
    next isOpen => simp [Before, isOpen, ConnState.rank]
    next => exact before_of_state rfl

theorem sendFrame_before (w : WsClient) (opcode : OpCode) (payload : Bytes) :
    w.Before (w.sendFrame opcode payload).1 := by
  unfold sendFrame
  split <;> exact before_of_state rfl

theorem sendText_before (w : WsClient) (payload : Bytes) : w.Before (w.sendText payload).1 := by
  unfold sendText
  split
  next => exact .refl w
  next => exact w.sendFrame_before .text payload

theorem sendPing_before (w : WsClient) (payload : Bytes) : w.Before (w.sendPing payload).1 := by
  unfold sendPing
  split
  next => exact .refl w
  next => exact w.sendFrame_before .ping payload

theorem sendPong_before (w : WsClient) (payload : Bytes) : w.Before (w.sendPong payload).1 := by
  unfold sendPong
  split
  next => exact .refl w
  next => exact w.sendFrame_before .pong payload

theorem sendClose_before (w : WsClient) (code : Nat) (reason : Bytes) :
    w.Before (w.sendClose code reason).1 := by
  unfold sendClose
  split
  next => exact .refl w
  next =>
    split
    next => exact .refl w
    next isOpen =>
      have live : w.state = .isOpen := by simpa using isOpen
      repeat' split
      all_goals first | exact .refl w | simp [Before, live, ConnState.rank]

/-! ## Receiving -/

theorem clearAfterEmit_before (w : WsClient) : w.Before w.clearAfterEmit :=
  before_of_state w.clearAfterEmit_state

theorem closeOnError_before (w : WsClient) : w.Before w.closeOnError := by
  unfold closeOnError
  split
  next => exact before_of_closed rfl
  next => exact .refl w

theorem tryEmitBorrowedData_before (w : WsClient) : w.Before w.tryEmitBorrowedData.1 := by
  unfold tryEmitBorrowedData
  dsimp only
  repeat' split
  all_goals first | exact queueClose_before w _ _ | exact before_of_state rfl

theorem startData_before (w : WsClient) (h : FrameHeader) : w.Before (w.startData h).1 := by
  unfold startData
  split
  next => exact queueClose_before w _ _
  next => exact before_of_state rfl

theorem onFrameStart_before (w : WsClient) (h : FrameHeader) : w.Before (w.onFrameStart h).1 := by
  unfold onFrameStart
  repeat' split
  all_goals first | exact queueClose_before w _ _ | exact before_of_state rfl | skip
  next => exact w.startData_before h
  next =>
    refine Before.trans ?_ (startData_before _ h)
    exact before_of_state rfl

/-- A frame is read while the client is open or closing. -/
theorem onReceivedClose_before (w : WsClient) (live : w.state.rank ≤ ConnState.closing.rank) :
    w.Before w.onReceivedClose.1 := by
  unfold onReceivedClose
  split
  next => exact live
  next => exact before_of_closed rfl

theorem endControl_before (w : WsClient) (live : w.state.rank ≤ ConnState.closing.rank)
    (opcode : OpCode) : w.Before (w.endControl opcode).1 := by
  have received := w.onReceivedClose_before live
  unfold endControl
  cases opcode with
  | ping =>
      dsimp only
      split <;> exact before_of_state rfl
  | close =>
      dsimp only
      split <;> simp_all
  | continuation | text | binary | pong => exact .refl w

theorem onFrameEnd_before (w : WsClient) (live : w.state.rank ≤ ConnState.closing.rank) :
    w.Before w.onFrameEnd.1 := by
  unfold onFrameEnd
  split
  next => exact .refl w
  next opcode current =>
    dsimp only
    split
    next => exact endControl_before { w with curOpcode := none } live opcode
    next =>
      repeat' split
      all_goals first | exact before_of_state rfl | skip
      next =>
        refine Before.trans ?_ (queueClose_before _ _ _)
        exact before_of_state rfl

theorem takePayload_before (w : WsClient) (slice : Bytes) : w.Before (w.takePayload slice) := by
  unfold takePayload
  repeat' split
  all_goals exact before_of_state rfl

theorem advanceFrame_before (w : WsClient) (live : w.state.rank ≤ ConnState.closing.rank) :
    w.Before w.advanceFrame.1 := by
  unfold advanceFrame
  split
  next parser e fed => exact queueClose_before { w with parser } _ _
  next => exact before_of_state rfl
  next parser consumed event fed =>
    dsimp only
    cases event with
    | frameStart h =>
        have started := onFrameStart_before { w with parser, recvBuf := w.recvBuf.drop consumed } h
        dsimp only
        split <;> simp_all [Before]
    | payloadChunk slice =>
        exact takePayload_before { w with parser, recvBuf := w.recvBuf.drop consumed } slice
    | frameEnd =>
        have ended := onFrameEnd_before { w with parser, recvBuf := w.recvBuf.drop consumed } live
        dsimp only
        split <;> simp_all [Before]

section Polling

variable [AcceptDigest]

theorem advanceHandshake_before (w : WsClient) (connecting : w.state = .connecting) :
    w.Before w.advanceHandshake.1 := by
  rw [Before, connecting]
  exact Nat.zero_le _

theorem advance_before (w : WsClient) : w.Before w.advance.1 := by
  unfold advance
  split
  next connecting => exact w.advanceHandshake_before connecting
  next isOpen => exact w.advanceFrame_before (by rw [isOpen]; decide)
  next closing => exact w.advanceFrame_before (by rw [closing])
  next => exact .refl w

theorem pollTurn_before (w : WsClient) : w.Before w.pollTurn.1 := by
  have tried := w.tryEmitBorrowedData_before
  unfold pollTurn
  split
  next => exact .refl w
  next =>
    split
    next w₁ kind found =>
      rw [found] at tried
      exact tried
    next w₁ found =>
      rw [found] at tried
      exact tried
    next w₁ e found =>
      rw [found] at tried
      exact tried.trans w₁.closeOnError_before
    next w₁ found =>
      rw [found] at tried
      have stepped := tried.trans w₁.advance_before
      unfold afterAdvance
      split
      next w₂ kind advanced =>
        rw [advanced] at stepped
        exact stepped
      next w₂ advanced =>
        rw [advanced] at stepped
        exact stepped
      next w₂ advanced =>
        rw [advanced] at stepped
        exact stepped
      next w₂ e advanced =>
        rw [advanced] at stepped
        exact stepped.trans w₂.closeOnError_before

omit [AcceptDigest] in
theorem queueFastDataFrameError_before (w : WsClient) (error : FastDataFrameError) :
    w.Before (w.queueFastDataFrameError error).1 := by
  cases error <;> exact queueClose_before w _ _

theorem before_respected : Respected Before where
  refl := .refl
  trans := .trans
  clear := clearAfterEmit_before
  feed w _ := before_of_state (w := w) rfl
  turn {w} _ := w.pollTurn_before
  read {w} _ _ _ _ := before_of_state (w := w) rfl
  refuse {w} e _ _ _ := w.queueFastDataFrameError_before e

theorem pollEvent_before (w : WsClient) : w.Before w.pollEvent.1 := before_respected.pollEvent w

theorem call_before (w : WsClient) (call : ClientCall) : w.Before (w.call call).1 := by
  refine before_respected.call w fun _ => ?_
  cases call with
  | sendText payload => exact w.sendText_before payload
  | sendBinary payload => exact w.sendFrame_before .binary payload
  | sendPing payload => exact w.sendPing_before payload
  | sendPong payload => exact w.sendPong_before payload
  | sendClose code reason => exact w.sendClose_before code reason
  | ackTx n => exact before_of_state rfl
  | feedRecv _ | pollEvent | drain _ | drainFromIngress _ _ => simp_all [ClientCall.IsSend]

end Polling

end WsClient

/-! ## Failed clients -/

section Failures

variable [AcceptDigest] {config : WsConfig} {clientKey : Text}

/-- Closing or closed. -/
def ConnState.Ending (state : ConnState) : Prop := ConnState.closing.rank ≤ state.rank

omit [AcceptDigest] in
theorem ConnState.Ending.ne_open {state : ConnState} (ending : state.Ending) :
    state ≠ .isOpen := by
  intro isOpen
  subst isOpen
  simp [ConnState.Ending, ConnState.rank] at ending

omit [AcceptDigest] in
theorem Core.queueClose_ending {c : Core} (live : c.Live) (code : Nat) (reason : String) :
    (c.queueClose code reason).state.Ending := by
  rw [Core.queueClose_closing live]
  exact Nat.le_refl _

omit [AcceptDigest] in
theorem Core.body_fail_ending {c next : Core} (live : c.Live) {h : FrameHeader} {headerLen : Nat}
    {r : Bytes} {error : WsError} (failed : c.body config h headerLen r = .fail next error) :
    next.state.Ending := by
  have closing := Core.queueClose_ending live
  unfold body control data at failed
  dsimp only at failed
  repeat' split at failed
  all_goals simp only [reduceCtorEq, Verdict.fail.injEq] at failed
  all_goals
    rw [← failed.1]
    first | exact closing _ _ | exact Nat.le_refl _

/-- A verdict that fails closes the client. -/
theorem Core.step_fail_ending {c next : Core} {fault : Fault} {mode : Mode} {r : Bytes}
    {error : WsError} (failed : c.step config clientKey fault mode r = .fail next error) :
    next.state.Ending := by
  have framed (live : c.Live)
      (failed : c.step config clientKey fault mode r = .fail next error) :
      next.state.Ending := by
    rw [step_live live] at failed
    split at failed
    next =>
      simp only [Verdict.fail.injEq] at failed
      rw [← failed.1]
      exact queueClose_ending live _ _
    next =>
      split at failed
      next => cases failed
      next =>
        unfold sound at failed
        split at failed
        next => exact body_fail_ending live failed
        next => cases failed
  cases state : c.state with
  | closed => simp [step, state] at failed
  | isOpen => exact framed (.inl state) failed
  | closing => exact framed (.inr state) failed
  | connecting =>
      simp only [step, state, handshake] at failed
      repeat' split at failed
      all_goals simp only [reduceCtorEq, Verdict.fail.injEq] at failed
      all_goals
        rw [← failed.1]
        exact ConnState.rank_le_closed _

theorem decode_error_ending (fault : Fault) (mode : Mode) (c : Core) (r : Bytes) {error : WsError}
    (failed : (decode config clientKey fault mode c r).error = some error) :
    (decode config clientKey fault mode c r).core.state.Ending := by
  fun_induction decode config clientKey fault mode c r with
  | case1 => cases failed
  | case2 => cases failed
  | case3 mode c r next error stepped => exact Core.step_fail_ending stepped
  | case4 mode c r next size event stepped ih => exact ih failed

theorem Drained.ending {σ : Type} {ops : SinkOps σ} {sink : σ} {events : Nat} {fault : Fault}
    {mode : Mode} {c : Core} {r : Bytes} {out : WsClient × σ × Except WsError Nat}
    (drained : Drained ops config clientKey sink events (decode config clientKey fault mode c r) out)
    (failed : errorOf out.2.2 ≠ none) : out.1.state.Ending := by
  rw [drained.reads.wire.state]
  cases error : (decode config clientKey fault mode c r).error with
  | none =>
      rw [drained.result, Decoded.answer, error] at failed
      exact absurd rfl failed
  | some e => exact decode_error_ending fault mode c r error

namespace WsClient

/-- A call that fails leaves the client closing or closed. -/
theorem Ready.call_ending {w : WsClient} (ready : w.Ready) {call : ClientCall}
    (failed : ¬ errorFree w call) : (w.call call).1.state.Ending := by
  obtain ⟨mode, c, r, stands⟩ := ready
  cases call with
  | pollEvent =>
      have spec := pollEvent_spec borrowedFault_lawful stands rfl
      unfold errorFree WsClient.call at failed
      unfold WsClient.call
      dsimp only at failed ⊢
      generalize w.pollEvent = out at spec failed
      cases spec with
      | waits => exact absurd rfl failed
      | event => exact absurd rfl failed
      | @fails w' quiet final rest error decoded silent path wire =>
          have reported : (decode w.config w.clientKey borrowedFault mode c r).error = some error := by
            rw [decoded]
          have ending := decode_error_ending borrowedFault mode c r reported
          rw [decoded] at ending
          exact wire.state ▸ ending
  | drain kind =>
      cases kind with
      | events => exact (drain_spec dataEventOps_lawful stands fun _ => rfl).ending failed
      | batches =>
          exact (drain_spec dataEventBatchOps_lawful stands
            ((dataEventBatchOps_settled_iff _).mpr rfl)).ending failed
      | marked baseMeta clock sequence =>
          exact (drain_spec (markedDataEventOps_lawful baseMeta) stands fun _ => rfl).ending failed
      | markedBatches baseMeta clock sequence =>
          exact (drain_spec (markedDataEventBatchOps_lawful baseMeta) stands
            ((markedDataEventBatchOps_settled_iff baseMeta _).mpr rfl)).ending failed
  | drainFromIngress kind bytes =>
      cases kind with
      | events =>
          exact (drainFromIngress_spec dataEventOps_lawful stands (fun _ => rfl) bytes).ending failed
      | batches =>
          exact (drainFromIngress_spec dataEventBatchOps_lawful stands
            ((dataEventBatchOps_settled_iff _).mpr rfl) bytes).ending failed
      | marked baseMeta clock sequence =>
          exact (drainFromIngress_spec (markedDataEventOps_lawful baseMeta) stands (fun _ => rfl)
            bytes).ending failed
      | markedBatches baseMeta clock sequence =>
          exact (drainFromIngress_spec (markedDataEventBatchOps_lawful baseMeta) stands
            ((markedDataEventBatchOps_settled_iff baseMeta _).mpr rfl) bytes).ending failed
  | feedRecv _ | sendText _ | sendBinary _ | sendPing _ | sendPong _ | sendClose _ _ | ackTx _ =>
      exact absurd rfl failed

/-- A client that is not closing or closed stands at a frame boundary, after any calls. -/
theorem reached_ready {w : WsClient} (reached : clientMachine.Reach Machine.always w)
    (live : ¬ w.state.Ending) : w.Ready := by
  have start (w : WsClient) (begun : clientMachine.initial w) : w.Ready ∨ w.state.Ending :=
    .inl (Begun.ready (w := w) begun)
  have keeps (w : WsClient) (call : ClientCall) (known : w.Ready ∨ w.state.Ending)
      (_ : Machine.always w call) :
      (clientMachine.step w call).1.Ready ∨ (clientMachine.step w call).1.state.Ending := by
    obtain ready | ending := known
    · by_cases clean : errorFree w call
      · exact .inl (ready.call clean)
      · exact .inr (ready.call_ending clean)
    · exact .inr (Nat.le_trans ending (w.call_before call))
  exact (reached.invariant start keeps).resolve_right live

/-! ### Polling, whatever the client holds -/

omit [AcceptDigest] in
theorem closeOnError_ending (w : WsClient) : w.closeOnError.state.Ending := by
  unfold closeOnError
  split
  next => exact (by decide : ConnState.closing.rank ≤ ConnState.closed.rank)
  next closing =>
    have state : w.state = .closing := by simpa using closing
    rw [state]
    exact Nat.le_refl _

theorem pollTurn_error_ending {w w' : WsClient} {e : WsError}
    (turned : w.pollTurn = (w', .done (some (.error e)))) : w'.state.Ending := by
  unfold pollTurn at turned
  split at turned
  next => simp at turned
  next =>
    split at turned
    next => simp [emitted] at turned
    next => simp at turned
    next w₁ e₁ tried =>
      simp only [Prod.mk.injEq] at turned
      rw [← turned.1]
      exact w₁.closeOnError_ending
    next w₁ tried =>
      unfold afterAdvance at turned
      split at turned
      next => simp [emitted] at turned
      next => simp at turned
      next => simp at turned
      next w₂ e₂ stepped =>
        simp only [Prod.mk.injEq] at turned
        rw [← turned.1]
        exact w₂.closeOnError_ending

theorem pollEvent_error_ending {w w' : WsClient} {e : WsError}
    (polled : w.pollEvent = (w', some (.error e))) : w'.state.Ending := by
  unfold pollEvent at polled
  generalize w.clearAfterEmit = cleared at polled
  fun_induction pollLoop cleared with
  | case1 w w₁ turned ih => exact ih polled
  | case2 w w₁ result turned =>
      simp only [Prod.mk.injEq] at polled
      rw [polled.1, polled.2] at turned
      exact pollTurn_error_ending turned

theorem pollAll_before (w : WsClient) : w.Before w.pollAll.1 := by
  fun_induction pollAll w with
  | case1 w w₁ polled =>
      have first := w.pollEvent_before
      rw [polled] at first
      exact first
  | case2 w w₁ error polled =>
      have first := w.pollEvent_before
      rw [polled] at first
      exact first
  | case3 w w₁ event polled w₂ events error tail ih =>
      have first := w.pollEvent_before
      rw [polled] at first
      rw [tail] at ih
      exact first.trans ih

theorem pollAll_error_ending {w w' : WsClient} {events : List Event} {e : WsError}
    (polled : w.pollAll = (w', events, some e)) : w'.state.Ending := by
  fun_induction pollAll w generalizing events with
  | case1 => simp at polled
  | case2 w w₁ error first =>
      simp only [Prod.mk.injEq] at polled
      rw [← polled.1]
      exact pollEvent_error_ending first
  | case3 w w₁ event first w₂ more error tail ih =>
      simp only [Prod.mk.injEq] at polled
      obtain ⟨rfl, -, rfl⟩ := polled
      exact ih tail

/-! ## A client that has read nothing -/

/-- Nothing has been fed to the client. -/
structure Untouched (w : WsClient) : Prop where
  state : w.state = .connecting
  recvBuf : w.recvBuf = []
  lastEmitted : w.lastEmitted = none

theorem newClient_untouched {config : WsConfig} {rng : SystemRandom} {w : WsClient}
    (made : WsClient.newClient config rng = .ok w) : w.Untouched := by
  unfold WsClient.newClient at made
  split at made
  next => simp at made
  next =>
    split at made
    next => simp at made
    next =>
      split at made
      next => simp at made
      next =>
        simp only [Except.ok.injEq] at made
        subst made
        exact ⟨rfl, rfl, rfl⟩

theorem Untouched.pollEvent {w : WsClient} (untouched : w.Untouched) :
    w.pollEvent = (w, none) := by
  have cleared : w.clearAfterEmit = w := by
    unfold WsClient.clearAfterEmit
    rw [untouched.lastEmitted]
    have same := untouched.lastEmitted
    cases w
    simp only at same
    rw [same]
  have turned : w.pollTurn = (w, .done none) := by
    have unread : Http.parseResponse [] = .ok none := by rfl
    simp [WsClient.pollTurn, WsClient.tryEmitBorrowedData, WsClient.advance,
      WsClient.advanceHandshake, WsClient.afterAdvance, untouched.state, untouched.recvBuf, unread]
  unfold WsClient.pollEvent
  rw [cleared]
  unfold WsClient.pollLoop
  split
  next w' again => simp [turned] at again
  next w' result done =>
    rw [turned] at done
    simp only [Prod.mk.injEq, Turn.done.injEq] at done
    rw [← done.1, ← done.2]

theorem Untouched.pollAll {w : WsClient} (untouched : w.Untouched) :
    w.pollAll = (w, [], none) := by
  have polled := untouched.pollEvent
  unfold WsClient.pollAll
  split
  next w' nothing =>
    rw [polled, Prod.mk.injEq] at nothing
    rw [nothing.1]
  next w' e failed => simp [polled] at failed
  next w' event emitted => simp [polled] at emitted

end WsClient

end Failures

end Talaris.Ws
