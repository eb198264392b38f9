import Talaris.Ws.Calls

/-!
# A rule for what calls do to a client

A poll is a loop of turns, and a drain is a loop of direct frames and polls.  A preorder on
clients that the turns and the direct frames respect is respected by every poll and every
drain, whatever its sink and whether it fails.
-/

namespace Talaris.Ws

namespace WsClient

/-! ## Turns leave the emit mark alone -/

section Marks

variable (w : WsClient)

theorem startData_lastEmitted (h : FrameHeader) :
    (w.startData h).1.lastEmitted = w.lastEmitted := by
  unfold startData
  split
  next => exact queueClose_lastEmitted w _ _
  next => rfl

theorem onFrameStart_lastEmitted (h : FrameHeader) :
    (w.onFrameStart h).1.lastEmitted = w.lastEmitted := by
  unfold onFrameStart
  repeat' split
  all_goals simp [startData_lastEmitted]

theorem onReceivedClose_lastEmitted : w.onReceivedClose.1.lastEmitted = w.lastEmitted := by
  unfold onReceivedClose
  split
  next => exact queueClose_lastEmitted w _ _
  next =>
    dsimp only
    split
    next => exact queueClose_lastEmitted w _ _
    next => rfl

theorem endControl_lastEmitted (opcode : OpCode) :
    (w.endControl opcode).1.lastEmitted = w.lastEmitted := by
  have received := w.onReceivedClose_lastEmitted
  unfold endControl
  cases opcode with
  | ping =>
      dsimp only
      split <;> rfl
  | close =>
      dsimp only
      split <;> simp_all
  | continuation | text | binary | pong => rfl

theorem onFrameEnd_lastEmitted : w.onFrameEnd.1.lastEmitted = w.lastEmitted := by
  unfold onFrameEnd
  split
  next => rfl
  next opcode current =>
    dsimp only
    split
    next => exact endControl_lastEmitted { w with curOpcode := none } opcode
    next =>
      repeat' split
      all_goals first | rfl | exact queueClose_lastEmitted _ _ _

theorem takePayload_lastEmitted (slice : Bytes) :
    (w.takePayload slice).lastEmitted = w.lastEmitted := by
  unfold takePayload
  repeat' split
  all_goals rfl

theorem advanceFrame_lastEmitted : w.advanceFrame.1.lastEmitted = w.lastEmitted := by
  unfold advanceFrame
  split
  next => exact queueClose_lastEmitted _ _ _
  next => rfl
  next parser consumed event fed =>
    dsimp only
    cases event with
    | frameStart h =>
        have started :=
          onFrameStart_lastEmitted { w with parser, recvBuf := w.recvBuf.drop consumed } h
        dsimp only
        split <;> simp_all
    | payloadChunk slice => exact takePayload_lastEmitted _ slice
    | frameEnd =>
        have ended := onFrameEnd_lastEmitted { w with parser, recvBuf := w.recvBuf.drop consumed }
        dsimp only
        split <;> simp_all

theorem advance_lastEmitted [AcceptDigest] : w.advance.1.lastEmitted = w.lastEmitted := by
  unfold advance
  split
  next =>
    unfold advanceHandshake
    repeat' split
    all_goals rfl
  next => exact w.advanceFrame_lastEmitted
  next => exact w.advanceFrame_lastEmitted
  next => rfl

end Marks

theorem tryEmitBorrowedData_lastEmitted (w : WsClient) :
    w.tryEmitBorrowedData.1.lastEmitted = w.lastEmitted := by
  unfold tryEmitBorrowedData
  dsimp only
  repeat' split
  all_goals first | rfl | exact queueClose_lastEmitted w _ _

theorem closeOnError_lastEmitted (w : WsClient) : w.closeOnError.lastEmitted = w.lastEmitted := by
  unfold closeOnError
  split <;> rfl

/-- Only an event sets the mark. -/
theorem pollTurn_lastEmitted [AcceptDigest] {w w' : WsClient} {turn : Turn}
    (turned : w.pollTurn = (w', turn)) (silent : ∀ event, turn ≠ .done (some (.ok event))) :
    w'.lastEmitted = w.lastEmitted := by
  have tried := w.tryEmitBorrowedData_lastEmitted
  have advanced := w.advance_lastEmitted
  unfold pollTurn at turned
  split at turned
  next =>
    simp only [Prod.mk.injEq] at turned
    rw [turned.1]
  next =>
    split at turned
    next =>
      simp only [emitted, Prod.mk.injEq] at turned
      exact absurd turned.2.symm (silent _)
    next found =>
      simp only [Prod.mk.injEq] at turned
      rw [found] at tried
      rw [← turned.1, tried]
    next found =>
      simp only [Prod.mk.injEq] at turned
      rw [found] at tried
      rw [← turned.1, closeOnError_lastEmitted, tried]
    next w₁ found =>
      cases tryEmitBorrowedData_fallback found
      unfold afterAdvance at turned
      split at turned
      next =>
        simp only [emitted, Prod.mk.injEq] at turned
        exact absurd turned.2.symm (silent _)
      next stepped =>
        simp only [Prod.mk.injEq] at turned
        rw [stepped] at advanced
        rw [← turned.1, advanced]
      next stepped =>
        simp only [Prod.mk.injEq] at turned
        rw [stepped] at advanced
        rw [← turned.1, advanced]
      next stepped =>
        simp only [Prod.mk.injEq] at turned
        rw [stepped] at advanced
        rw [← turned.1, closeOnError_lastEmitted, advanced]

/-- A poll without an event lends nothing. -/
theorem pollEvent_lastEmitted [AcceptDigest] {w w' : WsClient}
    {result : Option (Except WsError Event)} (polled : w.pollEvent = (w', result))
    (silent : ∀ event, result ≠ some (.ok event)) : w'.lastEmitted = none := by
  have cleared := w.clearAfterEmit_lastEmitted
  unfold pollEvent at polled
  generalize w.clearAfterEmit = w₁ at cleared polled
  fun_induction pollLoop w₁ with
  | case1 w w₁ turned ih =>
      exact ih ((pollTurn_lastEmitted turned (by simp)).trans cleared) polled
  | case2 w w₁ result turned =>
      simp only [Prod.mk.injEq] at polled
      obtain ⟨rfl, rfl⟩ := polled
      exact (pollTurn_lastEmitted turned (by simpa using silent)).trans cleared

/-! ## The rule -/

section Rule

variable [AcceptDigest]

/-- A preorder on clients that the parts of a receiving call respect. -/
structure Respected (R : WsClient → WsClient → Prop) : Prop where
  refl (w : WsClient) : R w w
  trans {w w' w'' : WsClient} : R w w' → R w' w'' → R w w''
  clear (w : WsClient) : R w w.clearAfterEmit
  feed (w : WsClient) (bytes : Bytes) : R w (w.feedRecv bytes)
  turn {w : WsClient} : w.lastEmitted = none → R w w.pollTurn.1
  /-- Direct frames are taken out of `recvBuf`. -/
  read {w : WsClient} (rest : Bytes) : w.lastEmitted = none → w.state = .isOpen →
    w.parser = .idle → R w { w with recvBuf := rest }
  /-- A direct frame is refused. -/
  refuse {w : WsClient} (e : FastDataFrameError) : w.lastEmitted = none → w.state = .isOpen →
    w.parser = .idle → R w (w.queueFastDataFrameError e).1

namespace Respected

variable {R : WsClient → WsClient → Prop} (respected : Respected R)
include respected

theorem pollLoop {w : WsClient} (cleared : w.lastEmitted = none) : R w w.pollLoop.1 := by
  fun_induction WsClient.pollLoop w with
  | case1 w w₁ turned ih =>
      have turn := respected.turn cleared
      rw [turned] at turn
      exact respected.trans turn (ih ((pollTurn_lastEmitted turned (by simp)).trans cleared))
  | case2 w w₁ result turned =>
      have turn := respected.turn cleared
      rw [turned] at turn
      exact turn

theorem pollEvent (w : WsClient) : R w w.pollEvent.1 :=
  respected.trans (respected.clear w) (respected.pollLoop w.clearAfterEmit_lastEmitted)

variable {σ : Type} (ops : SinkOps σ)

theorem tryDrain {w : WsClient} (cleared : w.lastEmitted = none) (sink : σ) :
    R w (w.tryDrain ops sink).1 := by
  unfold WsClient.tryDrain
  split
  next => exact respected.refl w
  next ready =>
    simp only [not_or, ne_eq, Decidable.not_not] at ready
    obtain ⟨isOpen, idle, -, -⟩ := ready
    have parser : w.parser = .idle := by
      cases parser : w.parser <;> simp_all [ParserState.isIdle]
    have read (rest : Bytes) := respected.read rest cleared isOpen parser
    dsimp only
    split
    next => exact read _
    next e _ =>
      refine respected.trans (read _) (respected.refuse e ?_ ?_ ?_)
      · exact cleared
      · exact isOpen
      · exact parser

theorem drainEvent (w : WsClient) (sink : σ) (events : Nat) :
    R w (w.drainEvent ops sink events).1 := by
  have polled := respected.pollEvent w
  unfold WsClient.drainEvent
  split <;> simp_all

theorem drainTurn (w : WsClient) (sink : σ) (events : Nat) :
    R w (w.drainTurn ops sink events).1 := by
  refine respected.trans (respected.clear w) ?_
  have tried := respected.tryDrain ops w.clearAfterEmit_lastEmitted sink
  unfold WsClient.drainTurn
  split
  next found => rw [found] at tried; exact tried
  next found => rw [found] at tried; exact tried
  next found => rw [found] at tried; exact tried
  next w₁ sink₁ direct found =>
    rw [found] at tried
    exact respected.trans tried (respected.drainEvent ops w₁ sink₁ _)

theorem drain (w : WsClient) (sink : σ) (events : Nat) : R w (w.drain ops sink events).1 := by
  fun_induction WsClient.drain ops w sink events with
  | case1 w sink events w₁ sink₁ more turned ih =>
      have turn := respected.drainTurn ops w sink events
      rw [turned] at turn
      exact respected.trans turn ih
  | case2 w sink events w₁ sink₁ result turned =>
      have turn := respected.drainTurn ops w sink events
      rw [turned] at turn
      exact turn

theorem tryDrainIngress {w : WsClient} (cleared : w.lastEmitted = none)
    (direct : w.canDrainIngressDirectly = true) (bytes : Bytes) (sink : σ) :
    R w (w.tryDrainIngress ops bytes sink).1 := by
  simp only [canDrainIngressDirectly, Bool.and_eq_true, decide_eq_true_eq] at direct
  obtain ⟨⟨⟨⟨isOpen, idle⟩, -⟩, -⟩, -⟩ := direct
  have parser : w.parser = .idle := by
    cases parser : w.parser <;> simp_all [ParserState.isIdle]
  unfold WsClient.tryDrainIngress
  dsimp only
  split
  next => exact respected.refl w
  next e _ => exact respected.refuse e cleared isOpen parser

theorem drainFromIngress (w : WsClient) (bytes : Bytes) (sink : σ) :
    R w (w.drainFromIngress ops bytes sink).1 := by
  refine respected.trans (respected.clear w) ?_
  have cleared := w.clearAfterEmit_lastEmitted
  unfold WsClient.drainFromIngress
  dsimp only
  generalize w.clearAfterEmit = w₁ at cleared
  have fed (w : WsClient) (bytes : Bytes) (sink : σ) (events : Nat) :
      R w ((w.feedRecv bytes).drain ops sink events).1 :=
    respected.trans (respected.feed w bytes) (respected.drain ops _ sink events)
  split
  next => exact respected.drain ops w₁ sink 0
  next =>
    split
    next direct =>
      have tried := respected.tryDrainIngress ops cleared direct bytes sink
      split
      next found => rw [found] at tried; exact tried
      next found => rw [found] at tried; exact tried
      next w₂ sink₂ events rest found =>
        rw [found] at tried
        exact respected.trans tried (respected.feed w₂ rest)
      next w₂ sink₂ events rest found =>
        rw [found] at tried
        exact respected.trans tried (fed w₂ rest sink₂ events)
    next => exact fed w₁ bytes sink 0

/-- Calls of every kind, if the sends and the acknowledgement respect the preorder too. -/
theorem call (w : WsClient) {call : ClientCall}
    (other : call.IsSend ∨ (∃ n, call = .ackTx n) → R w (w.call call).1) :
    R w (w.call call).1 := by
  cases call with
  | feedRecv bytes => exact respected.feed w bytes
  | pollEvent =>
      have polled := respected.pollEvent w
      unfold WsClient.call
      dsimp only
      split <;> simp_all
  | drain kind => cases kind <;> exact respected.drain _ w _ _
  | drainFromIngress kind bytes => cases kind <;> exact respected.drainFromIngress _ w bytes _
  | sendText _ | sendBinary _ | sendPing _ | sendPong _ | sendClose _ _ => exact other (.inl trivial)
  | ackTx n => exact other (.inr ⟨n, rfl⟩)

end Respected

end Rule

end WsClient

end Talaris.Ws
