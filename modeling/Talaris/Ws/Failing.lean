import Talaris.Ws.Limits

/-!
# Clients that have failed

A client that has found a malformed header keeps it, finds it again at every later call and
delivers nothing more (`Jammed`).  Every other refused frame is passed over, and so is a malformed
header that was read straight from the caller's bytes: what follows is read in `Closing` as if
nothing had happened.  So failing is final exactly in the first case (`failing_final`).
-/

namespace Talaris.Ws

open Talaris.Basis

/-! ## Malformed headers -/

/-- A malformed header that is all there is refused. -/
theorem feedHeader_malformed {filled bytes : Bytes} (fits : filled.length ≤ minNeeded filled)
    (bad : BadHeader (filled ++ bytes) = true) (complete : HeaderComplete (filled ++ bytes)) :
    ∃ parser e, feedHeader filled bytes 0 = (parser, .error e) := by
  rw [feedHeader_eq filled bytes 0 (Nat.le_trans fits (minNeeded_le_append filled bytes)),
    if_pos complete, parseFilled, parseHeader_take complete]
  cases parsed : parseHeader (filled ++ bytes) with
  | error e => exact ⟨_, e, rfl⟩
  | ok found =>
      cases found with
      | none => exact absurd parsed (parseHeader_ne_none complete)
      | some found =>
          obtain ⟨h, size⟩ := found
          have masked : h.mask.isSome = true := (badHeader_of_some parsed).symm.trans bad
          simp only [masked, if_true]
          exact ⟨_, _, rfl⟩

/-- The parser refuses nothing else, and it keeps what it refuses. -/
theorem feedHeader_refused {filled bytes : Bytes} {parser : ParserState} {e : FrameError}
    (fits : filled.length ≤ minNeeded filled)
    (fed : feedHeader filled bytes 0 = (parser, .error e)) :
    ∃ header, parser = .headerPartial header ∧ BadHeader header = true ∧
      HeaderComplete header ∧ header.length ≤ minNeeded header := by
  rw [feedHeader_eq filled bytes 0 (Nat.le_trans fits (minNeeded_le_append filled bytes))] at fed
  split at fed
  next complete =>
    have size : ((filled ++ bytes).take (minNeeded (filled ++ bytes))).length =
        minNeeded ((filled ++ bytes).take (minNeeded (filled ++ bytes))) := by
      rw [minNeeded_take complete, minNeeded_take_eq complete]
    generalize (filled ++ bytes).take (minNeeded (filled ++ bytes)) = header at fed size
    have whole : HeaderComplete header := Nat.le_of_eq size.symm
    unfold parseFilled at fed
    split at fed
    next e' parsed =>
      simp only [Prod.mk.injEq] at fed
      exact ⟨header, fed.1.symm, badHeader_of_error parsed, whole, Nat.le_of_eq size⟩
    next => simp at fed
    next h size' parsed =>
      split at fed
      next masked =>
        simp only [Prod.mk.injEq] at fed
        have bad : BadHeader header = true := (badHeader_of_some parsed).trans masked
        exact ⟨header, fed.1.symm, bad, whole, Nat.le_of_eq size⟩
      next => simp at fed
  next => simp at fed

namespace WsClient

/-! ## Jammed clients -/

/-- A closing client in front of a malformed header. -/
structure Jammed (w : WsClient) : Prop where
  closing : w.state = .closing
  cleared : w.lastEmitted = none
  outside : ∀ remaining, w.parser ≠ .payload remaining
  fits : w.parser.Fits
  malformed : BadHeader w.pendingInput = true

theorem pendingInput_cleared {w : WsClient} (cleared : w.lastEmitted = none) :
    w.pendingInput = match w.parser with
      | .headerPartial filled => filled ++ w.recvBuf
      | .idle | .payload _ => w.recvBuf := by
  cases stage : w.parser with
  | idle | headerPartial filled | payload remaining =>
      simp only [pendingInput, clearAfterEmit_idle cleared, stage]

/-- Outside of a payload the parser goes on in the header. -/
theorem feedOne_header {w : WsClient} (cleared : w.lastEmitted = none)
    (outside : ∀ remaining, w.parser ≠ .payload remaining) (fits : w.parser.Fits) :
    ∃ filled, feedOne w.parser w.recvBuf = feedHeader filled w.recvBuf 0 ∧
      w.pendingInput = filled ++ w.recvBuf ∧ filled.length ≤ minNeeded filled := by
  have pending := pendingInput_cleared cleared
  cases parser : w.parser with
  | idle => exact ⟨[], rfl, by rw [pending, parser]; rfl, Nat.zero_le _⟩
  | headerPartial filled =>
      rw [parser] at fits
      exact ⟨filled, rfl, by rw [pending, parser], fits⟩
  | payload remaining => exact absurd parser (outside remaining)

/-- A refused header stays in the parser of a client that is closing from now on. -/
theorem jammed_of_header {w : WsClient} {header : Bytes} (closing : w.state = .closing)
    (cleared : w.lastEmitted = none) (parser : w.parser = .headerPartial header)
    (bad : BadHeader header = true) (fits : header.length ≤ minNeeded header) : w.Jammed := by
  refine ⟨closing, cleared, by simp [parser], ?_, ?_⟩
  · rw [parser]
    exact fits
  · rw [pendingInput_cleared cleared, parser]
    exact badHeader_append bad w.recvBuf

/-- What a step makes of a jammed client. -/
inductive JamStep (w : WsClient) : WsClient × Except WsError AdvanceResult → Prop where
  | refused {w' : WsClient} (e : FrameError) :
      w'.Jammed → HeaderComplete w'.pendingInput → JamStep w (w', .error (.frame e))
  | waits {w' : WsClient} : w'.Jammed → ¬ HeaderComplete w.pendingInput →
      JamStep w (w', .ok .needMore)

theorem Jammed.advanceFrame {w : WsClient} (jammed : w.Jammed) : w.JamStep w.advanceFrame := by
  have malformed := jammed.malformed
  obtain ⟨filled, fed, held, short⟩ := feedOne_header jammed.cleared jammed.outside jammed.fits
  rw [held] at malformed
  unfold WsClient.advanceFrame
  by_cases complete : HeaderComplete (filled ++ w.recvBuf)
  · obtain ⟨parser, e, refused⟩ := feedHeader_malformed short malformed complete
    obtain ⟨header, rfl, bad, whole, fits⟩ := feedHeader_refused short refused
    rw [fed, refused]
    dsimp only
    rw [queueClose_ended (by exact jammed.closing)]
    refine .refused e (jammed_of_header jammed.closing jammed.cleared rfl bad fits) ?_
    rw [pendingInput_cleared (by exact jammed.cleared)]
    exact whole.append w.recvBuf
  · rw [fed, feedHeader_eq filled w.recvBuf 0 (Nat.le_trans short (minNeeded_le_append _ _)),
      if_neg complete]
    refine .waits (jammed_of_header jammed.closing jammed.cleared rfl malformed ?_)
      (held ▸ complete)
    unfold HeaderComplete at complete
    omega

section Polling

variable [AcceptDigest]

/-- A poll of a jammed client finds the malformed header, as soon as it is all there. -/
theorem Jammed.pollEvent {w : WsClient} (jammed : w.Jammed) :
    w.pollEvent.1.Jammed ∧
      ((¬ HeaderComplete w.pendingInput ∧ w.pollEvent.2 = none) ∨
        ∃ e, w.pollEvent.2 = some (.error (.frame e)) ∧
          HeaderComplete w.pollEvent.1.pendingInput) := by
  have stepped := jammed.advanceFrame
  have notReady : w.tryEmitBorrowedData = (w, .ok .fallback) := by
    simp [WsClient.tryEmitBorrowedData, jammed.closing]
  have turned : w.pollTurn = afterAdvance w.advanceFrame := by
    simp [pollTurn, jammed.closing, notReady, WsClient.advance]
  have polled : w.pollEvent = w.pollLoop := by
    rw [WsClient.pollEvent, clearAfterEmit_idle jammed.cleared]
  rw [polled]
  generalize w.advanceFrame = out at stepped turned
  unfold pollLoop
  cases stepped with
  | @refused w' e jammed' whole =>
      have still : w'.closeOnError = w' := by
        rw [WsClient.closeOnError, if_neg (by simp [jammed'.closing])]
      simp only [afterAdvance, still] at turned
      split <;> simp_all
  | @waits w' jammed' cut =>
      simp only [afterAdvance] at turned
      split <;> simp_all

theorem Jammed.drainTurn {σ : Type} (ops : SinkOps σ) {w : WsClient} (jammed : w.Jammed)
    (sink : σ) (events : Nat) :
    ∃ w' result, w.drainTurn ops sink events = (w', sink, .done result) ∧ w'.Jammed := by
  obtain ⟨kept, answers⟩ := jammed.pollEvent
  have passed : w.clearAfterEmit.tryDrain ops sink = (w, sink, .ok (0, .fallback)) := by
    rw [clearAfterEmit_idle jammed.cleared]
    simp [WsClient.tryDrain, jammed.closing]
  unfold WsClient.drainTurn
  rw [passed]
  dsimp only
  unfold drainEvent
  generalize w.pollEvent = out at kept answers
  obtain ⟨w', result⟩ := out
  obtain ⟨-, silent⟩ | ⟨e, failed, -⟩ := answers
  · dsimp only at silent
    subst silent
    exact ⟨w', _, rfl, kept⟩
  · dsimp only at failed
    subst failed
    exact ⟨w', _, rfl, kept⟩

/-- A drain of a jammed client hands out nothing. -/
theorem Jammed.drain {σ : Type} (ops : SinkOps σ) {w : WsClient} (jammed : w.Jammed) (sink : σ)
    (events : Nat) : (w.drain ops sink events).1.Jammed ∧ (w.drain ops sink events).2.1 = sink := by
  obtain ⟨w', result, turned, kept⟩ := jammed.drainTurn ops sink events
  unfold WsClient.drain
  split <;> simp_all

omit [AcceptDigest] in
theorem Jammed.feedRecv {w : WsClient} (jammed : w.Jammed) (bytes : Bytes) :
    (w.feedRecv bytes).Jammed := by
  have malformed := jammed.malformed
  rw [pendingInput_cleared jammed.cleared] at malformed
  refine ⟨jammed.closing, jammed.cleared, jammed.outside, jammed.fits, ?_⟩
  rw [pendingInput_cleared (by exact jammed.cleared)]
  have outside := jammed.outside
  cases parser : w.parser with
  | idle =>
      simp only [parser] at malformed
      simp only [WsClient.feedRecv, parser]
      exact badHeader_append malformed bytes
  | headerPartial filled =>
      simp only [parser] at malformed
      simp only [WsClient.feedRecv, parser, ← List.append_assoc]
      exact badHeader_append malformed bytes
  | payload remaining => exact absurd parser (outside remaining)

theorem Jammed.drainFromIngress {σ : Type} (ops : SinkOps σ) {w : WsClient} (jammed : w.Jammed)
    (bytes : Bytes) (sink : σ) :
    (w.drainFromIngress ops bytes sink).1.Jammed ∧
      (w.drainFromIngress ops bytes sink).2.1 = sink := by
  have indirect : w.canDrainIngressDirectly = false := by
    simp [canDrainIngressDirectly, jammed.closing]
  unfold WsClient.drainFromIngress
  rw [clearAfterEmit_idle jammed.cleared]
  simp only [indirect, Bool.false_eq_true, if_false]
  split
  next => exact jammed.drain ops sink 0
  next => exact (jammed.feedRecv bytes).drain ops sink 0

/-! ## What a call delivers -/

def drainKindMessages (w : WsClient) : DrainKind → List DataEvent
  | .events => w.drainDataEvents.2.1
  | .batches => w.drainDataEventBatches.2.1.calls.flatMap EventBatch.events
  | .marked baseMeta clock _ =>
      (w.drainDataEventsMarked baseMeta clock).2.1.calls.map MarkedDataEvent.event
  | .markedBatches baseMeta clock _ =>
      ((w.drainDataEventBatchesMarked baseMeta clock).2.1.calls.flatMap EventBatch.events).map
        MarkedDataEvent.event

def drainKindFromIngressMessages (w : WsClient) (bytes : Bytes) : DrainKind → List DataEvent
  | .events => (w.drainDataEventsFromIngress bytes).2.1
  | .batches => (w.drainDataEventBatchesFromIngress bytes).2.1.calls.flatMap EventBatch.events
  | .marked baseMeta clock sequence =>
      (w.drainDataEventsFromIngressMarkedWithMessageSequence bytes baseMeta clock
        sequence).2.1.calls.map MarkedDataEvent.event
  | .markedBatches baseMeta clock sequence =>
      ((w.drainDataEventBatchesFromIngressMarkedWithMessageSequence bytes baseMeta clock
        sequence).2.1.calls.flatMap EventBatch.events).map MarkedDataEvent.event

/-- The Text and Binary messages that a call delivers. -/
def delivers (w : WsClient) : ClientCall → List DataEvent
  | .pollEvent =>
      match w.pollEvent.2 with
      | some (.ok event) => event.data?.toList
      | some (.error _) | none => []
  | .drain kind => w.drainKindMessages kind
  | .drainFromIngress kind bytes => w.drainKindFromIngressMessages bytes kind
  | .feedRecv _ | .sendText _ | .sendBinary _ | .sendPing _ | .sendPong _ | .sendClose _ _
  | .ackTx _ => []

/-- No call gets a jammed client out, or a message out of it. -/
theorem Jammed.call {w : WsClient} (jammed : w.Jammed) (call : ClientCall) :
    (w.call call).1.Jammed ∧ w.delivers call = [] := by
  have ending : w.state.Ending := by
    rw [jammed.closing]
    exact Nat.le_refl _
  have refused {call : ClientCall} (sends : call.IsSend) : (w.call call).1.Jammed := by
    rw [send_ending ending sends]
    exact jammed
  cases call with
  | feedRecv bytes => exact ⟨jammed.feedRecv bytes, rfl⟩
  | pollEvent =>
      obtain ⟨kept, answers⟩ := jammed.pollEvent
      constructor
      · unfold WsClient.call
        dsimp only
        split <;> simp_all
      · obtain ⟨-, silent⟩ | ⟨e, failed, -⟩ := answers
        · simp [delivers, silent]
        · simp [delivers, failed]
  | drain kind =>
      cases kind with
      | events => exact jammed.drain dataEventOps [] 0
      | batches =>
          obtain ⟨kept, same⟩ := jammed.drain dataEventBatchOps {} 0
          refine ⟨kept, ?_⟩
          simp only [delivers, drainKindMessages, drainDataEventBatches, same, List.flatMap_nil]
      | marked baseMeta clock sequence =>
          obtain ⟨kept, same⟩ := jammed.drain (markedDataEventOps baseMeta)
            ⟨[], markedStart clock baseMeta.messageSequence⟩ 0
          refine ⟨kept, ?_⟩
          simp only [delivers, drainKindMessages, drainDataEventsMarked, same, List.map_nil]
      | markedBatches baseMeta clock sequence =>
          obtain ⟨kept, same⟩ := jammed.drain (markedDataEventBatchOps baseMeta)
            ⟨[], EventBatch.empty, markedStart clock baseMeta.messageSequence⟩ 0
          refine ⟨kept, ?_⟩
          simp only [delivers, drainKindMessages, drainDataEventBatchesMarked, same,
            List.flatMap_nil, List.map_nil]
  | drainFromIngress kind bytes =>
      cases kind with
      | events => exact jammed.drainFromIngress dataEventOps bytes []
      | batches =>
          obtain ⟨kept, same⟩ := jammed.drainFromIngress dataEventBatchOps bytes {}
          refine ⟨kept, ?_⟩
          simp only [delivers, drainKindFromIngressMessages, drainDataEventBatchesFromIngress,
            same, List.flatMap_nil]
      | marked baseMeta clock sequence =>
          obtain ⟨kept, same⟩ := jammed.drainFromIngress (markedDataEventOps baseMeta) bytes
            ⟨[], markedStart clock sequence⟩
          refine ⟨kept, ?_⟩
          simp only [delivers, drainKindFromIngressMessages,
            drainDataEventsFromIngressMarkedWithMessageSequence, same, List.map_nil]
      | markedBatches baseMeta clock sequence =>
          obtain ⟨kept, same⟩ := jammed.drainFromIngress (markedDataEventBatchOps baseMeta) bytes
            ⟨[], EventBatch.empty, markedStart clock sequence⟩
          refine ⟨kept, ?_⟩
          simp only [delivers, drainKindFromIngressMessages,
            drainDataEventBatchesFromIngressMarkedWithMessageSequence, same, List.flatMap_nil,
            List.map_nil]
  | sendText _ | sendBinary _ | sendPing _ | sendPong _ | sendClose _ _ =>
      exact ⟨refused trivial, rfl⟩
  | ackTx n =>
      refine ⟨⟨jammed.closing, jammed.cleared, jammed.outside, jammed.fits, ?_⟩, rfl⟩
      have malformed := jammed.malformed
      rw [pendingInput_cleared jammed.cleared] at malformed
      rw [pendingInput_cleared (by exact jammed.cleared)]
      exact malformed

end Polling

/-! ## A malformed header jams its client -/

/-- A header that is refused before any of it was read. -/
theorem jammed_of_idle {w : WsClient} (live : w.Live) (cleared : w.lastEmitted = none)
    (parser : w.parser = .idle) (bad : BadHeader w.recvBuf = true) (code : Nat) (reason : String) :
    (w.queueClose code reason).Jammed := by
  have still := (w.queueClose_parserState code reason).trans parser
  have fresh := (w.queueClose_lastEmitted code reason).trans cleared
  refine ⟨queueClose_closing live code reason, fresh, ?_, ?_, ?_⟩
  · rw [still]
    simp
  · rw [still]
    trivial
  · rw [pendingInput_cleared fresh, still, queueClose_recvBuf]
    exact bad

theorem onFrameStart_not_frame {w w' : WsClient} {h : FrameHeader} {e : FrameError} :
    w.onFrameStart h ≠ (w', .error (.frame e)) := by
  intro failed
  unfold onFrameStart startData at failed
  repeat' split at failed
  all_goals simp at failed

theorem onFrameEnd_not_frame {w w' : WsClient} {e : FrameError} :
    w.onFrameEnd ≠ (w', .error (.frame e)) := by
  intro failed
  have received {w₁ : WsClient} : w₁.onReceivedClose ≠ (w', .error (.frame e)) := by
    intro failed
    unfold onReceivedClose at failed
    split at failed <;> simp at failed
  have control {w₁ : WsClient} {opcode : OpCode} :
      w₁.endControl opcode ≠ (w', .error (.frame e)) := by
    intro failed
    unfold endControl at failed
    cases opcode with
    | close =>
        dsimp only at failed
        split at failed
        next refused =>
          simp only [Prod.mk.injEq] at failed
          obtain ⟨rfl, same⟩ := failed
          cases same
          exact received refused
        next => simp at failed
    | continuation | text | binary | ping | pong => simp at failed
  unfold onFrameEnd at failed
  split at failed
  next => simp at failed
  next opcode current =>
    dsimp only at failed
    split at failed
    next => exact control failed
    next =>
      repeat' split at failed
      all_goals simp at failed

/-- A frame error comes from the parser. -/
theorem advanceFrame_refuses {w w' : WsClient} {e : FrameError}
    (failed : w.advanceFrame = (w', .error (.frame e))) :
    ∃ parser e', feedOne w.parser w.recvBuf = (parser, .error e') ∧
      w' = { w with parser }.queueClose CloseCode.protocolError.asU16 "frame parse error" := by
  unfold advanceFrame at failed
  cases fed : feedOne w.parser w.recvBuf with
  | mk parser outcome =>
      rw [fed] at failed
      cases outcome with
      | error e' =>
          simp only [Prod.mk.injEq] at failed
          exact ⟨parser, e', rfl, failed.1.symm⟩
      | ok found =>
          exfalso
          dsimp only at failed
          cases found with
          | needMore consumed => simp at failed
          | event consumed event =>
              cases event with
              | frameStart h =>
                  dsimp only at failed
                  split at failed
                  next refused =>
                    simp only [Prod.mk.injEq, Except.error.injEq] at failed
                    exact onFrameStart_not_frame (failed.2 ▸ refused)
                  next => simp at failed
              | payloadChunk slice => simp at failed
              | frameEnd =>
                  dsimp only at failed
                  split at failed
                  next refused =>
                    simp only [Prod.mk.injEq, Except.error.injEq] at failed
                    exact onFrameEnd_not_frame (failed.2 ▸ refused)
                  next => simp at failed
                  next => simp at failed

/-- The parser keeps the header that it refuses. -/
theorem Within.advanceFrame_jams {w w' : WsClient} {e : FrameError} (within : w.Within)
    (live : w.Live) (cleared : w.lastEmitted = none)
    (failed : w.advanceFrame = (w', .error (.frame e))) : w'.Jammed := by
  obtain ⟨parser, e', refused, rfl⟩ := advanceFrame_refuses failed
  have outside : ∀ remaining, w.parser ≠ .payload remaining := by
    intro remaining inside
    rw [inside] at refused
    unfold feedOne at refused
    dsimp only at refused
    repeat' split at refused
    all_goals simp at refused
  obtain ⟨filled, fed, -, fits⟩ := feedOne_header cleared outside within.header
  obtain ⟨header, rfl, bad, -, short⟩ := feedHeader_refused fits (fed.symm.trans refused)
  have closing := queueClose_closing (w := { w with parser := .headerPartial header }) live
    CloseCode.protocolError.asU16 "frame parse error"
  refine jammed_of_header closing ?_ ?_ bad short
  · rw [queueClose_lastEmitted]
    exact cleared
  · rw [queueClose_parserState]

theorem tryEmitBorrowedData_jams {w w' : WsClient} {e : FrameError} (cleared : w.lastEmitted = none)
    (failed : w.tryEmitBorrowedData = (w', .error (.frame e))) : w'.Jammed := by
  unfold tryEmitBorrowedData at failed
  dsimp only at failed
  split at failed
  next => simp at failed
  next ready =>
    simp only [not_or, ne_eq, Decidable.not_not] at ready
    obtain ⟨isOpen, idle, -, -⟩ := ready
    have parser : w.parser = .idle := by
      cases parser : w.parser <;> simp_all [ParserState.isIdle]
    have jams := jammed_of_idle (.inl isOpen) cleared parser
    split at failed
    next e' parsed =>
      simp only [Prod.mk.injEq] at failed
      exact failed.1 ▸ jams (badHeader_of_error parsed) _ _
    next => simp at failed
    next h size parsed =>
      split at failed
      next masked =>
        simp only [Prod.mk.injEq] at failed
        exact failed.1 ▸ jams ((badHeader_of_some parsed).trans masked) _ _
      next =>
        repeat' split at failed
        all_goals simp at failed

section Jams

variable [AcceptDigest]

/-- A poll that refuses a malformed header leaves its client jammed. -/
theorem Within.pollLoop_jams {w w' : WsClient} {e : FrameError} (within : w.Within)
    (cleared : w.lastEmitted = none) (failed : w.pollLoop = (w', some (.error (.frame e)))) :
    w'.Jammed := by
  fun_induction WsClient.pollLoop w with
  | case1 w w₁ turned ih =>
      have kept := w.pollTurn_keepsWithin within
      rw [turned] at kept
      exact ih kept ((pollTurn_lastEmitted turned (by simp)).trans cleared) failed
  | case2 w w₁ result turned =>
      simp only [Prod.mk.injEq] at failed
      obtain ⟨rfl, rfl⟩ := failed
      have still {w : WsClient} (jammed : w.Jammed) : w.closeOnError.Jammed := by
        rw [WsClient.closeOnError, if_neg (by simp [jammed.closing])]
        exact jammed
      unfold pollTurn at turned
      split at turned
      next => simp at turned
      next =>
        split at turned
        next => simp [emitted] at turned
        next => simp at turned
        next w₂ e' tried =>
          simp only [Prod.mk.injEq, Turn.done.injEq, Option.some.injEq, Except.error.injEq]
            at turned
          obtain ⟨rfl, rfl⟩ := turned
          exact still (tryEmitBorrowedData_jams cleared tried)
        next w₂ tried =>
          cases tryEmitBorrowedData_fallback tried
          unfold afterAdvance at turned
          split at turned
          next => simp [emitted] at turned
          next => simp at turned
          next => simp at turned
          next w₃ e' stepped =>
            simp only [Prod.mk.injEq, Turn.done.injEq, Option.some.injEq, Except.error.injEq]
              at turned
            obtain ⟨rfl, rfl⟩ := turned
            refine still ?_
            unfold WsClient.advance at stepped
            split at stepped
            next =>
              unfold WsClient.advanceHandshake at stepped
              repeat' split at stepped
              all_goals simp at stepped
            next isOpen => exact within.advanceFrame_jams (.inl isOpen) cleared stepped
            next closing => exact within.advanceFrame_jams (.inr closing) cleared stepped
            next => simp at stepped

theorem Within.pollEvent_jams {w w' : WsClient} {e : FrameError} (within : w.Within)
    (failed : w.pollEvent = (w', some (.error (.frame e)))) : w'.Jammed :=
  within.clearAfterEmit.pollLoop_jams w.clearAfterEmit_lastEmitted failed

variable {σ : Type} (ops : SinkOps σ)

omit [AcceptDigest] in
/-- The direct frames end in front of what they refuse. -/
theorem directLoop_refused {config : WsConfig} {sink : σ} {events : Nat} {bytes : Bytes}
    {e : FrameError}
    (refused : (directLoop ops config sink events bytes).result = .error (.frame e)) :
    ∃ e', parseServerDataHeaderFast (directLoop ops config sink events bytes).rest = .error e' := by
  fun_induction directLoop ops config sink events bytes with
  | case1 => simp at refused
  | case2 sink events bytes nonempty event frameLen parsed ih => exact ih refused
  | case3 => simp at refused
  | case4 => simp at refused
  | case5 sink events bytes nonempty e' parsed =>
      simp only [Except.error.injEq] at refused
      subst refused
      unfold parseCompleteServerDataFrame at parsed
      split at parsed
      next e' found => exact ⟨e', found⟩
      next => cases parsed
      next => cases parsed
      next =>
        dsimp only at parsed
        repeat' split at parsed
        all_goals cases parsed

omit [AcceptDigest] in
theorem tryDrain_jams {w w' : WsClient} {sink sink' : σ} {e : FrameError}
    (cleared : w.lastEmitted = none)
    (failed : w.tryDrain ops sink = (w', sink', .error (.frame e))) : w'.Jammed := by
  unfold WsClient.tryDrain at failed
  split at failed
  next => simp at failed
  next ready =>
    simp only [not_or, ne_eq, Decidable.not_not] at ready
    obtain ⟨isOpen, idle, -, -⟩ := ready
    have parser : w.parser = .idle := by
      cases parser : w.parser <;> simp_all [ParserState.isIdle]
    dsimp only at failed
    split at failed
    next => simp at failed
    next error found =>
      cases error with
      | frame e' =>
          obtain ⟨e'', fast⟩ := directLoop_refused ops found
          simp only [queueFastDataFrameError, Prod.mk.injEq] at failed
          have bad := parseServerDataHeaderFast_error fast
          generalize (directLoop ops w.config sink 0 w.recvBuf).rest = rest at bad failed
          rw [← failed.1]
          exact jammed_of_idle (w := { w with recvBuf := rest }) (.inl isOpen) cleared parser bad _ _
      | frameTooLarge | messageTooLarge | utf8Invalid => simp [queueFastDataFrameError] at failed

/-- The same for a drain of buffered bytes. -/
theorem Within.drain_jams {w w' : WsClient} {sink sink' : σ} {events : Nat} {e : FrameError}
    (within : w.Within) (failed : w.drain ops sink events = (w', sink', .error (.frame e))) :
    w'.Jammed := by
  fun_induction WsClient.drain ops w sink events with
  | case1 w sink events w₁ sink₁ more turned ih =>
      have kept := keepsWithin_respected.drainTurn ops w sink events within
      rw [turned] at kept
      exact ih kept failed
  | case2 w sink events w₁ sink₁ result turned =>
      simp only [Prod.mk.injEq] at failed
      obtain ⟨rfl, rfl, rfl⟩ := failed
      have kept := keepsWithin_respected.tryDrain ops w.clearAfterEmit_lastEmitted sink
        within.clearAfterEmit
      unfold WsClient.drainTurn at turned
      split at turned
      next tried =>
        simp only [Prod.mk.injEq, DrainTurn.done.injEq, Except.error.injEq] at turned
        obtain ⟨rfl, rfl, rfl⟩ := turned
        exact tryDrain_jams ops w.clearAfterEmit_lastEmitted tried
      next => simp at turned
      next => simp at turned
      next w₂ sink₂ direct tried =>
        rw [tried] at kept
        unfold WsClient.drainEvent at turned
        split at turned
        next => simp at turned
        next polled =>
          simp only [Prod.mk.injEq, DrainTurn.done.injEq, Except.error.injEq] at turned
          obtain ⟨rfl, rfl, rfl⟩ := turned
          exact Within.pollEvent_jams kept polled
        next => simp at turned

end Jams

end WsClient

/-! ## Frames refused in `Open` -/

/-- The reading of a stream ends at a frame with a sound header that is refused in `Open`. -/
def Scan.refusesInOpen (s : Scan) : Bool :=
  match s.core.state, s.ending with
  | .isOpen, .failed _ _ => true
  | _, _ => false

/-- Errors about the upgrade response. -/
def WsError.isUpgrade : WsError → Bool
  | .http _ | .handshake _ => true
  | .frame _ | .close _ | .protocol _ | .invalidState _ | .utf8Invalid | .messageTooLarge
  | .internal _ => false

/-- What the direct path leaves of the bytes it is given. -/
def behindDirect (config : WsConfig) (bytes : Bytes) : Bytes :=
  match _parsed : parseCompleteServerDataFrame config bytes with
  | .ok (.parsed _ frameLen) => behindDirect config (bytes.drop frameLen)
  | _ => bytes
  termination_by bytes.length
  decreasing_by
    obtain ⟨atLeast, bound⟩ := parseCompleteServerDataFrame_size _parsed
    simp only [List.length_drop]
    omega

theorem directLoop_rest_eq {σ : Type} (ops : SinkOps σ) (config : WsConfig) (sink : σ)
    (events : Nat) (bytes : Bytes) :
    (directLoop ops config sink events bytes).rest = behindDirect config bytes := by
  fun_induction directLoop ops config sink events bytes with
  | case1 sink events bytes empty =>
      obtain rfl : bytes = [] := by simpa using empty
      rw [behindDirect]
      split
      next parsed =>
        have bound := (parseCompleteServerDataFrame_size parsed).1
        have upper := (parseCompleteServerDataFrame_size parsed).2
        rw [List.length_nil] at upper
        omega
      next => rfl
  | case2 sink events bytes nonempty event frameLen parsed ih =>
      rw [ih, behindDirect.eq_def config bytes]
      split <;> simp_all
  | case3 sink events bytes nonempty parsed | case4 sink events bytes nonempty parsed
  | case5 sink events bytes nonempty e parsed =>
      rw [behindDirect.eq_def config bytes]
      split <;> simp_all

section Refusing

variable [AcceptDigest] {config : WsConfig} {clientKey : Text}

/-- Reading a frame leads to `Closing` or `Connecting` from nowhere else. -/
theorem Core.judge_frame_state {c next : Core} {r : Bytes} {size : Nat} {event : Option Event}
    (judged : c.judge config clientKey r = .frame next size event) :
    next.state ≠ .connecting ∧ (c.state ≠ .closing → next.state ≠ .closing) := by
  have framed (live : c.Live) (judged : c.sound config r = .frame next size event) :
      next.state ≠ .connecting ∧ (c.state ≠ .closing → next.state ≠ .closing) := by
    have connected : c.state ≠ .connecting := by
      obtain isOpen | closing := live
      · simp [isOpen]
      · simp [closing]
    unfold Core.sound at judged
    split at judged
    next =>
      unfold Core.body Core.control Core.data at judged
      dsimp only at judged
      repeat' split at judged
      all_goals simp only [reduceCtorEq, Verdict.frame.injEq] at judged
      all_goals
        obtain ⟨rfl, -, -⟩ := judged
        first
          | exact ⟨connected, id⟩
          | exact ⟨by simp, by simp⟩
    next => cases judged
  unfold Core.judge at judged
  split at judged
  next => cases judged
  next =>
    unfold Core.handshake at judged
    repeat' split at judged
    all_goals simp only [reduceCtorEq, Verdict.frame.injEq] at judged
    obtain ⟨rfl, -, -⟩ := judged
    exact ⟨by simp, by simp⟩
  next isOpen =>
    split at judged
    next => cases judged
    next => exact framed (.inl isOpen) judged
  next closing =>
    split at judged
    next => cases judged
    next => exact framed (.inr closing) judged

/-- A reading that fails has failed at the upgrade, or in `Open`. -/
theorem scan_failed {c : Core} {r : Bytes} {next : Core} {error : WsError}
    (notClosing : c.state ≠ .closing)
    (failed : (scan config clientKey c r).ending = .failed next error) :
    (scan config clientKey c r).core.state = .isOpen ∨
      (c.state = .connecting ∧ error.isUpgrade = true) := by
  fun_induction scan config clientKey c r with
  | case1 => cases failed
  | case2 => cases failed
  | case3 c r next' error' judged =>
      cases failed
      cases state : c.state with
      | connecting =>
          refine .inr ⟨rfl, ?_⟩
          simp only [Core.judge, state, Core.handshake] at judged
          repeat' split at judged
          all_goals simp only [reduceCtorEq, Verdict.fail.injEq] at judged
          all_goals
            rw [← judged.2]
            rfl
      | isOpen => exact .inl rfl
      | closing => exact absurd state notClosing
      | closed => simp [Core.judge, state] at judged
  | case4 c r next' size event judged ih =>
      obtain ⟨connected, stays⟩ := Core.judge_frame_state judged
      obtain isOpen | ⟨connecting, -⟩ := ih (stays notClosing) failed
      · exact .inl isOpen
      · exact absurd connecting connected

/-- An error in `Open` is about a malformed header, unless a sound one is refused. -/
theorem Decoded.Conforms.refusal {d : Decoded} {c : Core} {r : Bytes} {error : WsError}
    (conforms : d.Conforms (scan config clientKey c r)) (reported : d.error = some error)
    (notClosing : c.state ≠ .closing)
    (tolerates : (scan config clientKey c r).refusesInOpen = false) :
    (∃ e, error = .frame e) ∨ (c.state = .connecting ∧ error.isUpgrade = true) := by
  obtain ⟨-, ends⟩ := conforms
  cases ending : (scan config clientKey c r).ending with
  | waiting =>
      simp only [ending] at ends
      simp [ends.1] at reported
  | violated =>
      simp only [ending] at ends
      obtain ⟨silent, -⟩ | ⟨e, -, found, -⟩ := ends
      · simp [silent] at reported
      · rw [found, Option.some.injEq] at reported
        exact .inl ⟨e, reported.symm⟩
  | failed next error' =>
      simp only [ending] at ends
      rw [ends.1, Option.some.injEq] at reported
      subst reported
      obtain isOpen | upgrade := scan_failed notClosing ending
      · simp [Scan.refusesInOpen, isOpen, ending] at tolerates
      · exact .inr upgrade

namespace WsClient

/-- The call refuses no frame with a sound header in `Open`, and it refuses none straight from the
bytes of its caller. -/
def Tolerates (w : WsClient) : ClientCall → Prop
  | .pollEvent =>
      ∀ mode c r, Stands w.config w.clientKey w mode c r →
        (scan w.config w.clientKey c r).events = [] →
          (scan w.config w.clientKey c r).refusesInOpen = false
  | .drain _ =>
      ∀ mode c r, Stands w.config w.clientKey w mode c r →
        (scan w.config w.clientKey c r).refusesInOpen = false
  | .drainFromIngress _ bytes =>
      (∀ mode c r, Stands w.config w.clientKey w mode c r →
        (scan w.config w.clientKey c (r ++ bytes)).refusesInOpen = false) ∧
      (w.clearAfterEmit.canDrainIngressDirectly = true →
        ∀ e, parseServerDataHeaderFast (behindDirect w.config bytes) ≠ .error e)
  | .feedRecv _ | .sendText _ | .sendBinary _ | .sendPing _ | .sendPong _ | .sendClose _ _
  | .ackTx _ => True

/-- The call returns an error for a frame received in `Open`. -/
def failsInOpen (w : WsClient) (call : ClientCall) : Bool :=
  match w.state, (w.call call).2 with
  | .isOpen, some _ => true
  | .connecting, some e => !e.isUpgrade
  | .connecting, none | .isOpen, none | .closing, _ | .closed, _ => false

theorem drainFromIngress_jams {σ : Type} (ops : SinkOps σ) {w w' : WsClient} {bytes : Bytes}
    {sink sink' : σ} {e : FrameError} (within : w.Within)
    (tolerates : w.clearAfterEmit.canDrainIngressDirectly = true →
      ∀ e, parseServerDataHeaderFast (behindDirect w.config bytes) ≠ .error e)
    (failed : w.drainFromIngress ops bytes sink = (w', sink', .error (.frame e))) : w'.Jammed := by
  have cleared := within.clearAfterEmit
  rw [← w.clearAfterEmit_config] at tolerates
  unfold WsClient.drainFromIngress at failed
  dsimp only at failed
  generalize w.clearAfterEmit = w₁ at cleared tolerates failed
  have fed (bytes : Bytes) : (w₁.feedRecv bytes).Within := keepsWithin_respected.feed w₁ bytes cleared
  split at failed
  next => exact cleared.drain_jams ops failed
  next =>
    split at failed
    next direct =>
      unfold tryDrainIngress at failed
      dsimp only at failed
      have rest := directLoop_rest_eq ops w₁.config sink 0 bytes
      cases result : (directLoop ops w₁.config sink 0 bytes).result with
      | error refusal =>
          rw [result] at failed
          cases refusal with
          | frame e' =>
              obtain ⟨e'', fast⟩ := directLoop_refused ops result
              exact absurd (rest ▸ fast) (tolerates direct e'')
          | frameTooLarge | messageTooLarge | utf8Invalid => simp [queueFastDataFrameError] at failed
      | ok found =>
          rw [result] at failed
          cases found with
          | drained | waitForMore => simp at failed
          | fallback => exact (fed _).drain_jams ops failed
    next => exact (fed bytes).drain_jams ops failed

/-- What fails in `Open` leaves its client jammed. -/
theorem Within.call_jams {w : WsClient} (within : w.Within) (ready : w.Ready) {call : ClientCall}
    (tolerates : w.Tolerates call) (failed : w.failsInOpen call = true) :
    (w.call call).1.Jammed := by
  obtain ⟨mode, c, r, stands⟩ := ready
  have state := stands.state_eq
  have notClosing : c.state ≠ .closing := by
    rw [← state]
    intro closing
    simp [failsInOpen, closing] at failed
  -- the error of the call is one of the parser
  have header {e : WsError} (reported : (w.call call).2 = some e)
      (kinds : (∃ fault, e = .frame fault) ∨ (c.state = .connecting ∧ e.isUpgrade = true)) :
      ∃ fault, e = .frame fault := by
    refine kinds.resolve_right ?_
    rintro ⟨connecting, upgrade⟩
    simp [failsInOpen, state, connecting, reported, upgrade] at failed
  obtain ⟨e, reported⟩ : ∃ e, (w.call call).2 = some e := by
    cases reported : (w.call call).2 with
    | some e => exact ⟨e, rfl⟩
    | none =>
        unfold failsInOpen at failed
        rw [reported] at failed
        split at failed <;> simp_all
  have drained {σ : Type} {ops : SinkOps σ} {sink : σ} {r' : Bytes}
      {out : WsClient × σ × Except WsError Nat}
      (sound : (scan w.config w.clientKey c r').refusesInOpen = false)
      (spec : Drained ops w.config w.clientKey sink 0
        (decode w.config w.clientKey fastFault mode c r') out)
      (failed : errorOf out.2.2 = some e) :
      ∃ fault, out = (out.1, out.2.1, .error (.frame fault)) := by
    have conforms := decode_conforms w.config w.clientKey fastFault_lawful mode c r'
    have result := spec.result
    rw [Decoded.answer] at result
    split at result
    next => simp [result, errorOf] at failed
    next error found =>
      rw [result] at failed
      cases failed
      obtain ⟨fault, rfl⟩ := header reported (conforms.refusal found notClosing sound)
      exact ⟨fault, by rw [← result]⟩
  cases call with
  | pollEvent =>
      have spec := pollEvent_spec borrowedFault_lawful stands rfl
      have conforms := decode_conforms w.config w.clientKey borrowedFault_lawful mode c r
      have jams {w' : WsClient} {fault : FrameError}
          (refused : w.pollEvent = (w', some (.error (.frame fault)))) : w'.Jammed :=
        within.pollEvent_jams refused
      unfold WsClient.call at reported ⊢
      dsimp only at reported ⊢
      generalize polled : w.pollEvent = out at spec reported jams
      cases spec with
      | waits => cases reported
      | event => cases reported
      | @fails w' quiet final rest error decoded silent path wire =>
          cases reported
          rw [decoded] at conforms
          have noEvent : (scan w.config w.clientKey c r).events = [] := by
            rw [← conforms.1]
            exact List.filterMap_eq_nil_iff.mpr silent
          have reported : (w.call .pollEvent).2 = some e := by
            simp [WsClient.call, polled]
          have sound := tolerates mode c r stands noEvent
          obtain ⟨fault, rfl⟩ := header reported (conforms.refusal rfl notClosing sound)
          exact jams rfl
  | drain kind =>
      have sound := tolerates mode c r stands
      cases kind with
      | events =>
          obtain ⟨fault, same⟩ := drained sound
            (drain_spec dataEventOps_lawful stands fun _ => rfl) reported
          exact within.drain_jams _ same
      | batches =>
          obtain ⟨fault, same⟩ := drained sound (drain_spec dataEventBatchOps_lawful stands
            ((dataEventBatchOps_settled_iff _).mpr rfl)) reported
          exact within.drain_jams _ same
      | marked baseMeta clock sequence =>
          obtain ⟨fault, same⟩ := drained sound
            (drain_spec (markedDataEventOps_lawful baseMeta) stands fun _ => rfl) reported
          exact within.drain_jams _ same
      | markedBatches baseMeta clock sequence =>
          obtain ⟨fault, same⟩ := drained sound
            (drain_spec (markedDataEventBatchOps_lawful baseMeta) stands
              ((markedDataEventBatchOps_settled_iff baseMeta _).mpr rfl)) reported
          exact within.drain_jams _ same
  | drainFromIngress kind bytes =>
      obtain ⟨sound, direct⟩ := tolerates
      have sound := sound mode c r stands
      cases kind with
      | events =>
          obtain ⟨fault, same⟩ := drained sound
            (drainFromIngress_spec dataEventOps_lawful stands (fun _ => rfl) bytes) reported
          exact drainFromIngress_jams _ within direct same
      | batches =>
          obtain ⟨fault, same⟩ := drained sound
            (drainFromIngress_spec dataEventBatchOps_lawful stands
              ((dataEventBatchOps_settled_iff _).mpr rfl) bytes) reported
          exact drainFromIngress_jams _ within direct same
      | marked baseMeta clock sequence =>
          obtain ⟨fault, same⟩ := drained sound
            (drainFromIngress_spec (markedDataEventOps_lawful baseMeta) stands (fun _ => rfl) bytes)
            reported
          exact drainFromIngress_jams _ within direct same
      | markedBatches baseMeta clock sequence =>
          obtain ⟨fault, same⟩ := drained sound
            (drainFromIngress_spec (markedDataEventBatchOps_lawful baseMeta) stands
              ((markedDataEventBatchOps_settled_iff baseMeta _).mpr rfl) bytes) reported
          exact drainFromIngress_jams _ within direct same
  | feedRecv _ | sendText _ | sendBinary _ | sendPing _ | sendPong _ | sendClose _ _ | ackTx _ =>
      cases reported

end WsClient

/-! ## Runs -/

/-- A client, and whether a call has returned an error for a frame received in `Open`. -/
structure Watched where
  client : WsClient
  failed : Bool

/-- One call; the output is what it delivers. -/
def Watched.step (s : Watched) : SessionCall → Watched × List DataEvent
  | .beginHandshake => ({ s with client := s.client.beginHandshake.1 }, [])
  | .call call =>
      (⟨(s.client.call call).1, s.failed || s.client.failsInOpen call⟩, s.client.delivers call)

def watchedMachine : Machine Watched SessionCall (List DataEvent) where
  initial s := (∃ config rng, WsClient.newClient config rng = .ok s.client) ∧ s.failed = false
  step := Watched.step

/-- Up to the first failure no call refuses a sound frame, or one of the caller's bytes. -/
def Watched.Tolerates (s : Watched) : SessionCall → Prop
  | .beginHandshake => True
  | .call call => s.failed = false → s.client.Tolerates call

/-- The invariant of such runs. -/
structure Watched.Final (s : Watched) : Prop where
  jammed : s.failed = true → s.client.Jammed
  reading : s.failed = false → s.client.Within ∧ (s.client.Ready ∨ s.client.state.Ending)

theorem newClient_final {s : Watched} (initial : watchedMachine.initial s) : s.Final := by
  obtain ⟨⟨config, rng, made⟩, fresh⟩ := initial
  obtain ⟨-, ready, -⟩ := newClient_fresh made
  obtain ⟨-, within, -⟩ := WsClient.newClient_stands made (.inl rfl)
  refine ⟨?_, fun _ => ⟨within, .inl ready⟩⟩
  rw [fresh]
  simp

omit [AcceptDigest] in
theorem WsClient.Within.beginHandshake {w : WsClient} (within : w.Within) :
    w.beginHandshake.1.Within := by
  obtain same | ⟨tx, begun, -⟩ := w.beginHandshake_cases
  · rw [same]
    exact within
  · rw [begun]
    exact within.of_same ⟨rfl, rfl, rfl⟩ rfl (Nat.le_refl _) within.settled

theorem Watched.Final.beginHandshake {s : Watched} (final : s.Final) :
    (s.step .beginHandshake).1.Final := by
  obtain same | ⟨tx, begun, connecting, -, -⟩ := s.client.beginHandshake_cases
  · simp only [Watched.step, same]
    exact final
  · simp only [Watched.step, begun]
    refine ⟨fun failed => ?_, fun clean => ?_⟩
    · have closing := (final.jammed failed).closing
      simp [connecting] at closing
    · obtain ⟨within, stands⟩ := final.reading clean
      have kept := within.beginHandshake
      rw [begun] at kept
      exact ⟨kept, stands.imp (fun ready => ready.rewire tx true) id⟩

theorem call_keepsWithin {w : WsClient} (within : w.Within) (call : ClientCall) :
    (w.call call).1.Within := by
  refine WsClient.keepsWithin_respected.call w (fun _ => ?_) within
  intro within
  have sent (opcode : OpCode) (payload : Bytes) : (w.sendFrame opcode payload).1.Within := by
    unfold WsClient.sendFrame
    split
    next => exact within
    next => exact within.of_same ⟨rfl, rfl, rfl⟩ rfl (Nat.le_refl _) within.settled
  cases call with
  | sendText payload =>
      simp only [WsClient.call, WsClient.sendText]
      split
      next => exact within
      next => exact sent .text payload
  | sendBinary payload => exact sent .binary payload
  | sendPing payload =>
      simp only [WsClient.call, WsClient.sendPing]
      split
      next => exact within
      next => exact sent .ping payload
  | sendPong payload =>
      simp only [WsClient.call, WsClient.sendPong]
      split
      next => exact within
      next => exact sent .pong payload
  | sendClose code reason =>
      simp only [WsClient.call, WsClient.sendClose]
      repeat' split
      all_goals first
        | exact within
        | exact within.of_same ⟨rfl, rfl, rfl⟩ rfl (Nat.le_refl _) (by simp)
  | ackTx n => exact within.of_same ⟨rfl, rfl, rfl⟩ rfl (Nat.le_refl _) within.settled
  | feedRecv _ | pollEvent | drain _ | drainFromIngress _ _ => simp_all [ClientCall.IsSend]

theorem Watched.Final.call {s : Watched} (final : s.Final) {call : ClientCall}
    (tolerates : s.Tolerates (.call call)) : (s.step (.call call)).1.Final := by
  cases failed : s.failed with
  | true =>
      have kept := ((final.jammed failed).call call).1
      simp only [Watched.step, failed, Bool.true_or]
      exact ⟨fun _ => kept, by simp⟩
  | false =>
      obtain ⟨within, stands⟩ := final.reading failed
      simp only [Watched.step, failed, Bool.false_or]
      refine ⟨fun fails => ?_, fun _ => ⟨call_keepsWithin within call, ?_⟩⟩
      · have ready : s.client.Ready := by
          refine stands.resolve_right fun ending => ?_
          unfold WsClient.failsInOpen at fails
          split at fails <;> simp_all [ConnState.Ending, ConnState.rank]
        exact within.call_jams ready (tolerates failed) fails
      · obtain ready | ending := stands
        · by_cases clean : errorFree s.client call
          · exact .inl (ready.call clean)
          · exact .inr (ready.call_ending clean)
        · exact .inr (Nat.le_trans ending (s.client.call_before call))

theorem Watched.Final.silent {s : Watched} (final : s.Final) (failed : s.failed = true)
    (calls : List SessionCall) : (watchedMachine.run s calls).2.flatten = [] := by
  induction calls generalizing s with
  | nil => rfl
  | cons call calls ih =>
      rw [Machine.run_cons, List.flatten_cons, List.append_eq_nil_iff]
      cases call with
      | beginHandshake => exact ⟨rfl, ih final.beginHandshake failed⟩
      | call call =>
          obtain ⟨-, silent⟩ := (final.jammed failed).call call
          refine ⟨silent, ih (final.call ?_) ?_⟩
          · intro clean
            simp [failed] at clean
          · simp [watchedMachine, Watched.step, failed]

/-- Once a call has failed on a malformed header of the stream, no later calls deliver a message. -/
theorem failing_final {s : Watched} (reached : watchedMachine.Reach Watched.Tolerates s)
    (failed : s.failed = true) (calls : List SessionCall) :
    (watchedMachine.run s calls).2.flatten = [] := by
  have final : s.Final := by
    refine reached.invariant (fun _ initial => newClient_final initial) ?_
    intro s call final tolerates
    cases call with
    | beginHandshake => exact final.beginHandshake
    | call call => exact final.call tolerates
  exact final.silent failed calls

end Refusing

/-! ## Two servers that break the protocol -/

/-- Where a client between two messages stands. -/
theorem Stands.between {config : WsConfig} {clientKey : Text} {w : WsClient} {mode : Mode}
    {c : Core} {r : Bytes} (stands : Stands config clientKey w mode c r)
    (cleared : w.lastEmitted = none) (idle : w.parser = .idle) (noMessage : w.msgOpcode = none) :
    c = ⟨w.state, none, w.tx.outbound⟩ ∧ r = w.recvBuf := by
  have holds := stands.holds
  rw [WsClient.clearAfterEmit_idle cleared] at holds
  have input := holds.input
  unfold HoldsInput at input
  rw [idle] at input
  obtain ⟨-, bytes, opcode, -⟩ := input
  rw [noMessage] at opcode
  refine ⟨?_, bytes⟩
  cases c with
  | mk state message outbound =>
      obtain ⟨sameState, sameFrames⟩ := holds.wire
      have none : message = none := by simpa using opcode.symm
      rw [none, sameState, sameFrames]

namespace Sample

attribute [local instance] digest

/-- The upgrade with a malformed header behind it. -/
def upgradeThenMalformed : Bytes := response ++ [0xC1, 0x00]

/-- A client that has found it. -/
def failed : Watched :=
  (watchedMachine.step ⟨client, false⟩
    (.call (.drainFromIngress .events upgradeThenMalformed))).1

theorem watched_initial : watchedMachine.initial ⟨created, false⟩ :=
  ⟨⟨config, random, created_eq⟩, rfl⟩

theorem client_tolerates : client.Tolerates (.drainFromIngress .events upgradeThenMalformed) := by
  have indirect : client.clearAfterEmit.canDrainIngressDirectly = false := by decide +kernel
  refine ⟨fun mode c r stands => ?_, fun direct => absurd direct (by simp [indirect])⟩
  obtain ⟨rfl, rfl⟩ := stands.between (by decide +kernel) (by decide +kernel) (by decide +kernel)
  decide +kernel

theorem begun_reached : watchedMachine.Reach Watched.Tolerates ⟨client, false⟩ :=
  (Machine.Reach.start watched_initial).next .beginHandshake trivial

theorem failed_reached : watchedMachine.Reach Watched.Tolerates failed := by
  have admitted : Watched.Tolerates ⟨client, false⟩
      (.call (.drainFromIngress .events upgradeThenMalformed)) := fun _ => client_tolerates
  exact begun_reached.next _ admitted

def textThenPoll : List SessionCall :=
  [.beginHandshake, .call (.drainFromIngress .events response),
    .call (.feedRecv [0x81, 0x01, 0xFF]), .call .pollEvent]

/-- A client that has found a text message that is not valid UTF-8. -/
def refused : Watched := (watchedMachine.run ⟨created, false⟩ textThenPoll).1

theorem refused_reached : watchedMachine.Reach Machine.always refused :=
  (Machine.Reach.start watched_initial).run_always textThenPoll

end Sample

attribute [local instance] Sample.digest

/-- A text message behind the malformed header is not delivered. -/
theorem failing_final_malformed :
    Sample.failed.failed = true ∧
      (watchedMachine.run Sample.failed
        [.call (.feedRecv [0x81, 0x01, 0x41]), .call .pollEvent, .call .pollEvent]).2.flatten = [] := by
  have failed : Sample.failed.failed = true := by
    decide +kernel
  exact ⟨failed, failing_final Sample.failed_reached failed _⟩

/-- A text message behind one that is not valid UTF-8 is delivered. -/
theorem failing_not_final :
    watchedMachine.Reach Machine.always Sample.refused ∧ Sample.refused.failed = true ∧
      (watchedMachine.run Sample.refused [.call .pollEvent, .call (.feedRecv [0x81, 0x01, 0x41]),
        .call .pollEvent]).2.flatten = [.text [0x41]] := by
  have failed : Sample.refused.failed = true := by
    decide +kernel
  exact ⟨Sample.refused_reached, failed, by decide +kernel⟩

end Talaris.Ws
