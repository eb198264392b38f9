import Talaris.Ws.Failing

/-!
# Polling settles

A client settles when polling it, without further bytes, ends after finitely many answers, at most
one for each frame (`Settles`).  Three kinds of refused frames break this: a malformed header that
is all there is reported for ever; a data frame refused in place is read and refused again in
`Closing`; and behind the payload of a frame refused at its header the parser ends a frame that
has not begun.  `Reading` is a reading of the buffered bytes without these, and as long as there is
one the client settles (`polls_settle`).
-/

namespace Talaris.Ws

open Talaris.Basis

/-- What a poll returns, if anything. -/
abbrev Answer := Except WsError Event

/-! ## Settling -/

namespace WsClient

/-- The part of the current frame that is no longer in the receive buffer. -/
def Consumed (w : WsClient) (head : Bytes) : Prop :=
  match w.parser with
  | .idle => head = []
  | .headerPartial filled => head = filled
  | .payload remaining =>
      ∃ h size, parseHeader head = .ok (some (h, size)) ∧
        head.length + remaining = size + h.payloadLen

section Polls

variable [AcceptDigest]

end Polls

end WsClient

/-! ## Readings -/

/-- Refused at the header of a frame. -/
def WsError.refusesHeader : WsError → Bool
  | .messageTooLarge | .protocol _ => true
  | .frame _ | .handshake _ | .http _ | .close _ | .invalidState _ | .utf8Invalid
  | .internal _ => false

/-- Refused at the end of a frame. -/
def WsError.refusesFrame : WsError → Bool
  | .utf8Invalid | .close _ => true
  | .frame _ | .handshake _ | .http _ | .protocol _ | .invalidState _ | .messageTooLarge
  | .internal _ => false

namespace WsError

variable {e : WsError}

theorem refusesHeader.not_upgrade (kind : e.refusesHeader = true) : e.isUpgrade = false := by
  cases e <;> first | rfl | cases kind

theorem refusesHeader.not_refusesFrame (kind : e.refusesHeader = true) :
    e.refusesFrame = false := by
  cases e <;> first | rfl | cases kind

theorem refusesFrame.not_upgrade (kind : e.refusesFrame = true) : e.isUpgrade = false := by
  cases e <;> first | rfl | cases kind

end WsError

/-- The frame is read in place, without the parser. -/
def readInPlace (mode : Mode) (c : Core) (h : FrameHeader) : Bool :=
  mode = .idle && c.state = .isOpen && c.message.isNone && h.fin &&
    (h.opcode = .text || h.opcode = .binary)

/-- Where reading goes on behind a frame refused at its end: a message that is not valid UTF-8 is
given up. -/
def Core.behind (next : Core) : WsError → Core
  | .utf8Invalid => { next with message := none }
  | _ => next

/-- A reading of the buffered bytes that refuses each frame once, and its answers. -/
inductive Reading [AcceptDigest] (config : WsConfig) (clientKey : Text) :
    Mode → Core → Bytes → List Answer → Prop where
  | waits {mode : Mode} {c : Core} {r : Bytes} :
      c.step config clientKey borrowedFault mode r = .needMore →
      Reading config clientKey mode c r []
  | frame {mode : Mode} {c next : Core} {r : Bytes} {size : Nat} {event : Option Event}
      {answers : List Answer} :
      c.step config clientKey borrowedFault mode r = .frame next size event →
      Reading config clientKey .idle next (r.drop size) answers →
      Reading config clientKey mode c r ((event.map Except.ok).toList ++ answers)
  | upgrade {mode : Mode} {c next : Core} {r : Bytes} {error : WsError} :
      c.step config clientKey borrowedFault mode r = .fail next error → c.state = .connecting →
      Reading config clientKey mode c r [.error error]
  /-- A malformed header is reported before it is all there. -/
  | cut {mode : Mode} {c next : Core} {r : Bytes} {e : FrameError} :
      c.step config clientKey borrowedFault mode r = .fail next (.frame e) →
      ¬ HeaderComplete r → Reading config clientKey mode c r [.error (.frame e)]
  /-- The payload behind a refused header is not all there. -/
  | header {mode : Mode} {c next : Core} {r : Bytes} {error : WsError} {h : FrameHeader}
      {size : Nat} : c.step config clientKey borrowedFault mode r = .fail next error →
      error.refusesHeader = true → parseHeader r = .ok (some (h, size)) →
      readInPlace mode c h = false → r.length < size + h.payloadLen →
      Reading config clientKey mode c r [.error error]
  | frameEnd {mode : Mode} {c next : Core} {r : Bytes} {error : WsError} {h : FrameHeader}
      {size : Nat} {answers : List Answer} :
      c.step config clientKey borrowedFault mode r = .fail next error →
      error.refusesFrame = true → parseHeader r = .ok (some (h, size)) →
      size + h.payloadLen ≤ r.length → readInPlace mode c h = false →
      Reading config clientKey .idle (next.behind error) (r.drop (size + h.payloadLen)) answers →
      Reading config clientKey mode c r (.error error :: answers)

/-! ## What a failing turn leaves behind -/

namespace WsClient

/-- Inside the payload of a frame that was refused at its header. -/
structure Skipping (w : WsClient) (remaining : Nat) : Prop where
  closing : w.state = .closing
  cleared : w.lastEmitted = none
  parser : w.parser = .payload remaining
  current : w.curOpcode = none

theorem queueClose_eq (w : WsClient) (code : Nat) (reason : String) :
    ∃ state tx, w.queueClose code reason = { w with state, tx } := by
  unfold queueClose
  split
  next => exact ⟨w.state, w.tx, rfl⟩
  next =>
    dsimp only [writeFrame]
    split
    next => exact ⟨_, _, rfl⟩
    next => exact ⟨_, _, rfl⟩

theorem closeOnError_eq (w : WsClient) : ∃ state, w.closeOnError = { w with state } := by
  unfold closeOnError
  split
  next => exact ⟨.closed, rfl⟩
  next => exact ⟨w.state, rfl⟩

end WsClient

section Aftermath

variable [AcceptDigest] {config : WsConfig} {clientKey : Text} {mode : Mode} {w : WsClient}
  {c : Core} {r : Bytes}

/-- The verdicts that refuse a frame leave the message alone. -/
theorem Core.step_fail_message {fault : Fault} {next : Core} {error : WsError}
    (failed : c.step config clientKey fault mode r = .fail next error) :
    next.message = c.message := by
  have queued (code : Nat) (reason : String) : (c.queueClose code reason).message = c.message := by
    unfold Core.queueClose
    split
    next => rfl
    next =>
      dsimp only [Core.write]
      split <;> rfl
  have framed (failed : c.sound config r = .fail next error) : next.message = c.message := by
    unfold Core.sound at failed
    split at failed
    next =>
      unfold Core.body Core.control Core.data at failed
      dsimp only at failed
      repeat' split at failed
      all_goals simp only [reduceCtorEq, Verdict.fail.injEq] at failed
      all_goals
        rw [← failed.1]
        exact queued _ _
    next => cases failed
  have live (live : c.Live) : next.message = c.message := by
    rw [Core.step_live live] at failed
    split at failed
    next =>
      simp only [Verdict.fail.injEq] at failed
      rw [← failed.1]
      exact queued _ _
    next =>
      split at failed
      next => cases failed
      next => exact framed failed
  cases state : c.state with
  | connecting =>
      simp only [Core.step, state, Core.handshake] at failed
      repeat' split at failed
      all_goals simp only [reduceCtorEq, Verdict.fail.injEq] at failed
      all_goals rw [← failed.1]
  | isOpen => exact live (.inl state)
  | closing => exact live (.inr state)
  | closed => simp [Core.step, state] at failed

omit [AcceptDigest] in
/-- Between two frames nothing is left in the parser. -/
theorem Holds.between (holds : Holds config clientKey w .idle c r) :
    w.parser = .idle ∧ r = w.recvBuf ∧ HoldsMessage w c.message := by
  have input := holds.input
  unfold HoldsInput at input
  split at input
  next parser => exact ⟨parser, input.2⟩
  next => cases input.1
  next => cases input.1

omit [AcceptDigest] in
/-- The same position under the wire of the next core. -/
theorem Holds.rewired (holds : Holds config clientKey w .idle c r) (state : ConnState)
    (tx : TxQueue) {next : Core} (wire : SameWire { w with state, tx } next)
    (message : next.message = c.message) :
    Holds config clientKey { w with state, tx } .idle next r := by
  obtain ⟨parser, bytes, held⟩ := holds.between
  exact ⟨holds.config, holds.clientKey, holds.cleared, holds.unborrowed, wire,
    .idle parser bytes (message.symm ▸ held)⟩

/-- A client after a turn that failed. -/
inductive Aftermath (config : WsConfig) (clientKey : Text) (mode : Mode) (c : Core) (r : Bytes)
    (next : Core) : WsError → WsClient → Prop where
  | upgrade {w' : WsClient} {error : WsError} : error.isUpgrade = true → w'.state = .closed →
      Aftermath config clientKey mode c r next error w'
  | inPlace {w' : WsClient} {error : WsError} {h : FrameHeader} {size : Nat} :
      parseHeader r = .ok (some (h, size)) → readInPlace mode c h = true →
      (∀ e, error ≠ .frame e) → Aftermath config clientKey mode c r next error w'
  | malformed {w' : WsClient} {e : FrameError} : BadHeader r = true →
      (HeaderComplete r ∨ Holds config clientKey w' .idle next r) →
      Aftermath config clientKey mode c r next (.frame e) w'
  | header {w' : WsClient} {error : WsError} {h : FrameHeader} {size : Nat} :
      error.refusesHeader = true → parseHeader r = .ok (some (h, size)) →
      w'.Skipping h.payloadLen → w'.recvBuf = r.drop size →
      Aftermath config clientKey mode c r next error w'
  | frameEnd {w' : WsClient} {error : WsError} {h : FrameHeader} {size : Nat} :
      error.refusesFrame = true → parseHeader r = .ok (some (h, size)) →
      size + h.payloadLen ≤ r.length →
      Holds config clientKey w' .idle (next.behind error) (r.drop (size + h.payloadLen)) →
      Aftermath config clientKey mode c r next error w'

namespace WsClient

omit [AcceptDigest] in
theorem startData_refuses {w w' : WsClient} {h : FrameHeader} {e : WsError}
    (failed : w.startData h = (w', .error e)) :
    e.refusesHeader = true ∧ w'.curOpcode = w.curOpcode := by
  unfold startData at failed
  split at failed
  next =>
    simp only [Prod.mk.injEq, Except.error.injEq] at failed
    obtain ⟨rfl, rfl⟩ := failed
    exact ⟨rfl, (w.queueClose_input _ _).2.1⟩
  next => simp at failed

omit [AcceptDigest] in
theorem onFrameStart_refuses {w w' : WsClient} {h : FrameHeader} {e : WsError}
    (failed : w.onFrameStart h = (w', .error e)) :
    e.refusesHeader = true ∧ w'.curOpcode = w.curOpcode := by
  have queued {code : Nat} {reason : String} {e' : WsError} (kind : e'.refusesHeader = true)
      (failed : (w.queueClose code reason, Except.error (α := Unit) e') = (w', .error e)) :
      e.refusesHeader = true ∧ w'.curOpcode = w.curOpcode := by
    simp only [Prod.mk.injEq, Except.error.injEq] at failed
    obtain ⟨rfl, rfl⟩ := failed
    exact ⟨kind, (w.queueClose_input _ _).2.1⟩
  unfold onFrameStart at failed
  repeat' split at failed
  all_goals first
    | exact queued rfl failed
    | (have refused := startData_refuses failed
       exact refused)
    | simp at failed

end WsClient

omit [AcceptDigest] in
/-- A frame refused at its end is behind the client. -/
theorem onFrameEnd_aftermath {w w' : WsClient} {next : Core} {h : FrameHeader} {got : Bytes}
    {error : WsError} (limits : w.config = config) (key : w.clientKey = clientKey)
    (cleared : w.lastEmitted = none) (unborrowed : w.borrowedPayload = none)
    (parser : w.parser = .idle) (current : w.curOpcode = some h.opcode)
    (payload : HoldsPayload w c h got) (failed : w.onFrameEnd = (w', .error error))
    (wire : SameWire w'.closeOnError next) (message : next.message = c.message) :
    error.refusesFrame = true ∧
      Holds config clientKey w'.closeOnError .idle (next.behind error) w.recvBuf := by
  unfold WsClient.onFrameEnd at failed
  rw [current] at failed
  dsimp only at failed
  cases payload with
  | control isControl ctlBuf held =>
      rw [if_pos isControl] at failed
      unfold WsClient.endControl at failed
      cases opcode : h.opcode with
      | close =>
          rw [opcode] at failed
          dsimp only at failed
          cases received : WsClient.onReceivedClose { w with curOpcode := none } with
          | mk w₁ outcome =>
              rw [received] at failed
              cases outcome with
              | ok _ => simp at failed
              | error e =>
                  simp only [Prod.mk.injEq, Except.error.injEq] at failed
                  obtain ⟨rfl, rfl⟩ := failed
                  unfold WsClient.onReceivedClose at received
                  split at received
                  next bad parsed =>
                    simp only [Prod.mk.injEq, Except.error.injEq] at received
                    obtain ⟨rfl, rfl⟩ := received
                    obtain ⟨state, tx, queued⟩ := WsClient.queueClose_eq { w with curOpcode := none }
                      CloseCode.protocolError.asU16 "bad close payload"
                    rw [queued] at wire ⊢
                    have kept : HoldsMessage w next.message := message.symm ▸ held
                    exact ⟨rfl, limits, key, cleared, unborrowed, wire, .idle parser rfl kept⟩
                  next => simp at received
      | ping | pong => simp [opcode] at failed
      | continuation | text | binary => simp [opcode, OpCode.isControl] at isControl
  | @data kind acc isData joined opcode msgBuf fits =>
      rw [if_neg (by simp [isData])] at failed
      split at failed
      next => simp at failed
      next =>
        rw [opcode] at failed
        cases kind with
        | binary => simp [DataKind.toOpCode] at failed
        | text =>
            dsimp only [DataKind.toOpCode] at failed
            split at failed
            next invalid =>
              simp only [Prod.mk.injEq, Except.error.injEq] at failed
              obtain ⟨rfl, rfl⟩ := failed
              obtain ⟨state, tx, queued⟩ := WsClient.queueClose_eq
                { w with curOpcode := none, msgOpcode := none } CloseCode.invalidPayload.asU16
                "invalid utf-8"
              rw [queued] at wire ⊢
              obtain ⟨state', closed⟩ := WsClient.closeOnError_eq
                { w with curOpcode := none, msgOpcode := none, state, tx }
              rw [closed] at wire ⊢
              exact ⟨rfl, limits, key, cleared, unborrowed, ⟨wire.state, wire.outbound⟩,
                .idle parser rfl ⟨rfl, fun _ _ found => by cases found⟩⟩
            next => simp at failed

omit [AcceptDigest] in
/-- A step of the parser that fails. -/
theorem advanceFrame_aftermath {w' : WsClient} {next : Core} {error : WsError} (within : w.Within)
    (live : w.Live) (holds : Holds config clientKey w mode c r)
    (failed : w.advanceFrame = (w', .error error)) (wire : SameWire w'.closeOnError next)
    (message : next.message = c.message) :
    Aftermath config clientKey mode c r next error w'.closeOnError := by
  have header (filled : Bytes) (outside : ∀ remaining, w.parser ≠ .payload remaining)
      (fed : feedOne w.parser w.recvBuf = feedHeader filled w.recvBuf 0)
      (bytes : r = filled ++ w.recvBuf) (fits : filled.length ≤ minNeeded filled) :
      Aftermath config clientKey mode c r next error w'.closeOnError := by
    have short : filled.length ≤ minNeeded r := by
      rw [bytes]
      exact Nat.le_trans fits (minNeeded_le_append filled w.recvBuf)
    have rest : w.recvBuf.drop (minNeeded r - filled.length) = r.drop (minNeeded r) := by
      rw [bytes, List.drop_append, ← bytes, List.drop_eq_nil_of_le short, List.nil_append]
    unfold WsClient.advanceFrame at failed
    rw [fed, feedHeader_eq filled w.recvBuf 0 (bytes ▸ short), ← bytes] at failed
    by_cases complete : HeaderComplete r
    · rw [if_pos complete, parseFilled, parseHeader_take complete] at failed
      cases parsed : parseHeader r with
      | error e =>
          rw [parsed] at failed
          simp only [Prod.mk.injEq, Except.error.injEq] at failed
          obtain ⟨-, rfl⟩ := failed
          exact .malformed (badHeader_of_error parsed) (.inl complete)
      | ok found =>
          cases found with
          | none => exact absurd parsed (parseHeader_ne_none complete)
          | some found =>
              obtain ⟨h, size⟩ := found
              obtain ⟨rfl, -⟩ := parseHeader_some_minNeeded parsed
              rw [parsed] at failed
              by_cases masked : h.mask.isSome = true
              · simp only [masked, if_true, Prod.mk.injEq, Except.error.injEq] at failed
                obtain ⟨-, rfl⟩ := failed
                exact .malformed ((badHeader_of_some parsed).trans masked) (.inl complete)
              · simp only [masked, Bool.false_eq_true, if_false, Nat.zero_add] at failed
                split at failed
                next w₁ e started =>
                  simp only [Prod.mk.injEq, Except.error.injEq] at failed
                  obtain ⟨rfl, rfl⟩ := failed
                  obtain ⟨kind, current⟩ := WsClient.onFrameStart_refuses started
                  have closing := WsClient.onFrameStart_failed (by exact live) started
                  have input := WsClient.onFrameStart_input { w with
                    parser := .payload h.payloadLen
                    recvBuf := w.recvBuf.drop (minNeeded r - filled.length) } h
                  have mark := WsClient.onFrameStart_lastEmitted { w with
                    parser := .payload h.payloadLen
                    recvBuf := w.recvBuf.drop (minNeeded r - filled.length) } h
                  rw [started] at input mark
                  have still : w₁.closeOnError = w₁ := by
                    rw [WsClient.closeOnError, if_neg (by simp [closing])]
                  rw [still]
                  refine .header kind parsed ⟨closing, mark.trans holds.cleared, input.2,
                    current.trans (within.no_current outside)⟩ ?_
                  rw [← rest]
                  exact input.1
                next => simp at failed
    · rw [if_neg complete] at failed
      simp at failed
  have input := holds.input
  unfold HoldsInput at input
  cases parser : w.parser with
  | idle =>
      simp only [parser] at input
      exact header [] (by simp [parser]) (by rw [parser, feedOne]) input.2.1 (Nat.zero_le _)
  | headerPartial filled =>
      simp only [parser] at input
      obtain ⟨-, -, bytes, fits, -⟩ := input
      exact header filled (by simp [parser]) (by rw [parser, feedOne]) bytes fits
  | payload remaining =>
      simp only [parser] at input
      obtain ⟨-, -, head, got, h, inFrame⟩ := input
      unfold WsClient.advanceFrame at failed
      rw [parser, feedOne] at failed
      split at failed
      next found =>
        split at found <;> [skip; split at found]
        all_goals simp at found
      next => simp at failed
      next parser' consumed event found =>
        split at found
        next done =>
          have done : remaining = 0 := by simpa using done
          subst done
          simp only [Prod.mk.injEq, Except.ok.injEq, FeedOutcome.event.injEq] at found
          obtain ⟨rfl, rfl, rfl⟩ := found
          dsimp only at failed
          split at failed
          next w₁ e ended =>
            simp only [Prod.mk.injEq, Except.error.injEq] at failed
            obtain ⟨rfl, rfl⟩ := failed
            obtain ⟨parsed, unmasked, bytes, rem, allowed, curOpcode, curFin, payload⟩ := inFrame
            have whole : parseHeader r = .ok (some (h, head.length)) := by
              rw [bytes, List.append_assoc, parseHeader_append (by simp [parsed]), parsed]
            have rest : r.drop (head.length + h.payloadLen) = w.recvBuf := by
              rw [bytes, ← rem, Nat.add_zero, ← List.length_append, List.drop_left]
            obtain ⟨kind, behind⟩ := onFrameEnd_aftermath
              (w := { w with parser := .idle, recvBuf := w.recvBuf.drop 0 }) holds.config
              holds.clientKey holds.cleared holds.unborrowed rfl curOpcode
              (payload.congr rfl rfl rfl rfl) ended wire message
            refine .frameEnd kind whole ?_ (rest ▸ behind)
            rw [bytes, ← rem]
            simp only [List.length_append]
            omega
          next => simp at failed
          next => simp at failed
        next =>
          split at found
          next => simp at found
          next =>
            simp only [Prod.mk.injEq, Except.ok.injEq, FeedOutcome.event.injEq] at found
            obtain ⟨rfl, rfl, rfl⟩ := found
            simp at failed

omit [AcceptDigest] in
/-- A data frame or a malformed header refused in place. -/
theorem tryEmitBorrowedData_aftermath {w' : WsClient} {next : Core} {error : WsError}
    (holds : Holds config clientKey w mode c r)
    (failed : w.tryEmitBorrowedData = (w', .error error)) (wire : SameWire w'.closeOnError next)
    (message : next.message = c.message) :
    Aftermath config clientKey mode c r next error w'.closeOnError := by
  unfold WsClient.tryEmitBorrowedData at failed
  dsimp only at failed
  split at failed
  next => simp at failed
  next ready =>
    obtain ⟨rfl, isOpen, noMessage, rfl, parser⟩ := holds.ready ready
    have kept {code : Nat} {reason : String}
        (wire : SameWire (w.queueClose code reason).closeOnError next) :
        Holds config clientKey (w.queueClose code reason).closeOnError .idle next w.recvBuf := by
      obtain ⟨state, tx, queued⟩ := w.queueClose_eq code reason
      rw [queued] at wire ⊢
      obtain ⟨state', closed⟩ := WsClient.closeOnError_eq { w with state, tx }
      rw [closed] at wire ⊢
      exact holds.rewired state' tx wire message
    split at failed
    next e parsed =>
      simp only [Prod.mk.injEq, Except.error.injEq] at failed
      obtain ⟨rfl, rfl⟩ := failed
      exact .malformed (badHeader_of_error parsed) (.inr (kept wire))
    next => simp at failed
    next h size parsed =>
      split at failed
      next masked =>
        simp only [Prod.mk.injEq, Except.error.injEq] at failed
        obtain ⟨rfl, rfl⟩ := failed
        exact .malformed ((badHeader_of_some parsed).trans masked) (.inr (kept wire))
      next =>
        split at failed
        next => simp at failed
        next other =>
          have borrowed : readInPlace .idle c h = true := by
            simp only [not_or, not_and, Bool.not_eq_true', Bool.not_eq_false] at other
            simp only [readInPlace, isOpen, noMessage, other.1]
            by_cases text : h.opcode = .text
            · simp [text]
            · have binary := other.2 text
              simp only [ne_eq, Decidable.not_not] at binary
              simp [binary]
          have plain : ∀ e, error ≠ .frame e := by
            rintro e rfl
            repeat' split at failed
            all_goals simp at failed
          exact .inPlace parsed borrowed plain

theorem pollTurn_aftermath {w' : WsClient} {next : Core} {error : WsError} (within : w.Within)
    (holds : Holds config clientKey w mode c r)
    (stepped : c.step config clientKey borrowedFault mode r = .fail next error)
    (turned : w.pollTurn = (w', .done (some (.error error)))) (wire : SameWire w' next) :
    Aftermath config clientKey mode c r next error w' := by
  have message := Core.step_fail_message stepped
  unfold WsClient.pollTurn at turned
  split at turned
  next => simp at turned
  next =>
    split at turned
    next => simp [WsClient.emitted] at turned
    next => simp at turned
    next tried =>
      simp only [Prod.mk.injEq, WsClient.Turn.done.injEq, Option.some.injEq, Except.error.injEq]
        at turned
      obtain ⟨rfl, rfl⟩ := turned
      exact tryEmitBorrowedData_aftermath holds tried wire message
    next w₁ tried =>
      cases WsClient.tryEmitBorrowedData_fallback tried
      cases advanced : w.advance with
      | mk w₂ outcome =>
          rw [advanced] at turned
          cases outcome with
          | ok result => cases result <;> simp [WsClient.afterAdvance, WsClient.emitted] at turned
          | error e =>
              simp only [WsClient.afterAdvance, Prod.mk.injEq, WsClient.Turn.done.injEq,
                Option.some.injEq, Except.error.injEq] at turned
              obtain ⟨rfl, rfl⟩ := turned
              unfold WsClient.advance at advanced
              cases state : w.state with
              | connecting =>
                  simp only [state] at advanced
                  have refused : e.isUpgrade = true ∧ w₂.state = .connecting := by
                    unfold WsClient.advanceHandshake at advanced
                    repeat' split at advanced
                    all_goals
                      simp only [Prod.mk.injEq, Except.error.injEq, reduceCtorEq, and_false]
                        at advanced
                    all_goals
                      obtain ⟨rfl, rfl⟩ := advanced
                      exact ⟨rfl, state⟩
                  refine .upgrade refused.1 ?_
                  rw [WsClient.closeOnError, if_pos (by simp [refused.2])]
              | isOpen =>
                  simp only [state] at advanced
                  exact advanceFrame_aftermath within (.inl state) holds advanced wire message
              | closing =>
                  simp only [state] at advanced
                  exact advanceFrame_aftermath within (.inr state) holds advanced wire message
              | closed => simp [state] at advanced

end Aftermath

/-! ## Regular clients -/

section Regular

variable [AcceptDigest]

namespace WsClient

/-- A client with the answers that polling it will give. -/
inductive Owes (w : WsClient) : List Answer → Prop where
  | reads {mode : Mode} {c : Core} {r : Bytes} {answers : List Answer} :
      Stands w.config w.clientKey w mode c r → Reading w.config w.clientKey mode c r answers →
      Owes w answers
  | skips {remaining : Nat} {head : Bytes} : w.Skipping remaining → w.Consumed head →
      w.recvBuf.length < remaining → Owes w []
  | closed : w.state = .closed → Owes w []

/-- Polling the client goes on without a frame that is answered twice. -/
def Regular (w : WsClient) : Prop := ∃ answers, w.Owes answers

theorem owes_of_reading {config : WsConfig} {clientKey : Text} {w : WsClient} {mode : Mode}
    {c : Core} {r : Bytes} {answers : List Answer} (stands : Stands config clientKey w mode c r)
    (reading : Reading config clientKey mode c r answers) : w.Owes answers := by
  have limits := stands.holds.config
  have key := stands.holds.clientKey
  rw [clearAfterEmit_config] at limits
  rw [clearAfterEmit_clientKey] at key
  subst limits
  subst key
  exact .reads stands reading

omit [AcceptDigest] in
/-- The parser waits inside a frame only. -/
theorem feedOne_inFrame (parser : ParserState) (bytes : Bytes) :
    ∀ consumed, (feedOne parser bytes).2 = .ok (.needMore consumed) →
      (feedOne parser bytes).1 ≠ .idle := by
  have header (filled bytes : Bytes) (consumed : Nat) : (feedHeader filled bytes consumed).1 ≠ .idle := by
    fun_induction feedHeader filled bytes consumed with
    | case1 filled bytes consumed full =>
        unfold parseFilled
        repeat' split
        all_goals simp
    | case2 => simp
    | case3 filled bytes consumed short want take some ih => exact ih
  intro consumed waits
  unfold feedOne at waits ⊢
  cases parser with
  | idle => exact header [] bytes 0
  | headerPartial filled => exact header filled bytes 0
  | payload remaining =>
      dsimp only at waits ⊢
      repeat' split at waits
      all_goals simp_all

/-- The rest of a refused frame is passed over. -/
theorem Skipping.pollLoop {w : WsClient} {remaining : Nat} {head : Bytes}
    (skipping : w.Skipping remaining) (consumed : w.Consumed head)
    (short : w.recvBuf.length < remaining) :
    ∃ w', w.pollLoop = (w', none) ∧ w'.Owes [] := by
  obtain ⟨closing, cleared, parser, current⟩ := skipping
  -- a turn without bytes waits
  have rests {w : WsClient} {remaining : Nat} {head : Bytes} (skipping : w.Skipping remaining)
      (consumed : w.Consumed head) (empty : w.recvBuf = []) (some : 0 < remaining) :
      ∃ w', w.pollLoop = (w', none) ∧ w'.Owes [] := by
    obtain ⟨closing, cleared, parser, current⟩ := skipping
    have advanced : w.advanceFrame = (w, .ok .needMore) := by
      have positive : (remaining == 0) = false := by simpa using Nat.ne_of_gt some
      have same : { w with parser := .payload remaining, recvBuf := [] } = w := by
        rw [← parser, ← empty]
      simp [WsClient.advanceFrame, parser, feedOne, positive, empty, same]
    have turned : w.pollTurn = (w, .done none) := by
      simp [pollTurn, closing, WsClient.tryEmitBorrowedData, WsClient.advance, advanced,
        afterAdvance]
    refine ⟨w, ?_, .skips ⟨closing, cleared, parser, current⟩ consumed ?_⟩
    · unfold WsClient.pollLoop
      split <;> simp_all
    · rw [empty]
      exact some
  by_cases empty : w.recvBuf = []
  · refine rests ⟨closing, cleared, parser, current⟩ consumed empty ?_
    exact Nat.lt_of_le_of_lt (Nat.zero_le _) short
  · have advanced : w.advanceFrame =
        ({ w with parser := .payload (remaining - w.recvBuf.length), recvBuf := [] },
          .ok .progressed) := by
      have positive : (remaining == 0) = false := by
        rw [beq_eq_false_iff_ne]
        omega
      have all : min w.recvBuf.length remaining = w.recvBuf.length := by omega
      have nonempty : w.recvBuf.isEmpty = false := by simpa using empty
      simp [WsClient.advanceFrame, parser, feedOne, positive, nonempty, all,
        WsClient.takePayload, current]
    have turned : w.pollTurn =
        ({ w with parser := .payload (remaining - w.recvBuf.length), recvBuf := [] }, .again) := by
      simp [pollTurn, closing, WsClient.tryEmitBorrowedData, WsClient.advance, advanced,
        afterAdvance]
    unfold Consumed at consumed
    rw [parser] at consumed
    obtain ⟨h, size, parsed, whole⟩ := consumed
    unfold WsClient.pollLoop
    split
    next w₁ again =>
      rw [turned, Prod.mk.injEq] at again
      rw [← again.1]
      have passed : Consumed
          { w with parser := .payload (remaining - w.recvBuf.length), recvBuf := [] }
          (head ++ w.recvBuf) := by
        refine ⟨h, size, ?_, ?_⟩
        · rw [parseHeader_append (by simp [parsed]), parsed]
        · rw [List.length_append]
          omega
      exact rests ⟨closing, cleared, rfl, current⟩ passed rfl (by omega)
    next done =>
      rw [turned, Prod.mk.injEq] at done
      cases done.2

omit [AcceptDigest] in
theorem advanceFrame_waits {w w' : WsClient}
    (advanced : w.advanceFrame = (w', .ok .needMore)) : w'.parser ≠ .idle := by
  have fed := feedOne_inFrame w.parser w.recvBuf
  unfold WsClient.advanceFrame at advanced
  generalize feedOne w.parser w.recvBuf = out at fed advanced
  obtain ⟨parser, outcome⟩ := out
  cases outcome with
  | error e => simp at advanced
  | ok found =>
      cases found with
      | needMore consumed =>
          simp only [Prod.mk.injEq, and_true] at advanced
          rw [← advanced]
          exact fed consumed rfl
      | event consumed event =>
          cases event with
          | frameStart h =>
              dsimp only at advanced
              split at advanced <;> simp at advanced
          | payloadChunk slice => simp at advanced
          | frameEnd =>
              dsimp only at advanced
              split at advanced <;> simp at advanced

/-- A poll that waits leaves the parser where it is, or inside a frame. -/
theorem pollTurn_silent {w w' : WsClient} (turned : w.pollTurn = (w', .done none)) :
    w' = w ∨ w'.parser ≠ .idle := by
  unfold pollTurn at turned
  split at turned
  next =>
    simp only [Prod.mk.injEq, and_true] at turned
    exact .inl turned.symm
  next =>
    split at turned
    next => simp [emitted] at turned
    next w₁ tried =>
      simp only [Prod.mk.injEq, and_true] at turned
      subst turned
      unfold WsClient.tryEmitBorrowedData at tried
      dsimp only at tried
      repeat' split at tried
      all_goals
        simp only [Prod.mk.injEq, Except.ok.injEq, reduceCtorEq, and_false, and_true] at tried
      all_goals exact .inl tried.symm
    next => simp at turned
    next w₁ tried =>
      cases tryEmitBorrowedData_fallback tried
      cases advanced : w.advance with
      | mk w₂ outcome =>
          rw [advanced] at turned
          cases outcome with
          | error e => simp [afterAdvance] at turned
          | ok result =>
              cases result with
              | emit kind => simp [afterAdvance, emitted] at turned
              | progressed => simp [afterAdvance] at turned
              | needMore =>
                  simp only [afterAdvance, Prod.mk.injEq, and_true] at turned
                  subst turned
                  unfold WsClient.advance at advanced
                  split at advanced
                  next =>
                    unfold WsClient.advanceHandshake at advanced
                    repeat' split at advanced
                    all_goals
                      simp only [Prod.mk.injEq, Except.ok.injEq, reduceCtorEq, and_false, and_true]
                        at advanced
                    exact .inl advanced.symm
                  next => exact .inr (advanceFrame_waits advanced)
                  next => exact .inr (advanceFrame_waits advanced)
                  next =>
                    simp only [Prod.mk.injEq, and_true] at advanced
                    exact .inl advanced.symm

/-- A poll with the answers that the client owes before and after it. -/
inductive Polled : WsClient × Option Answer → List Answer → Prop where
  | silent {w : WsClient} : w.Owes [] → Polled (w, none) []
  | answer {w : WsClient} {a : Answer} {answers : List Answer} : w.Owes answers →
      Polled (w, some a) (a :: answers)

end WsClient

/-! ### Readings and verdicts -/

section Readings

variable {config : WsConfig} {clientKey : Text} {mode : Mode} {c next : Core} {r : Bytes}
  {answers : List Answer}

/-- Only a client that waits for the upgrade fails on it. -/
theorem Core.step_connecting_fail {fault : Fault} {error : WsError}
    (connecting : c.state = .connecting)
    (failed : c.step config clientKey fault mode r = .fail next error) :
    error.isUpgrade = true := by
  simp only [Core.step, connecting, Core.handshake] at failed
  repeat' split at failed
  all_goals simp only [reduceCtorEq, Verdict.fail.injEq] at failed
  all_goals
    rw [← failed.2]
    rfl

/-- What waits in place waits in the parser too. -/
theorem Core.step_streaming (waits : c.step config clientKey borrowedFault mode r = .needMore) :
    c.step config clientKey borrowedFault .streaming r = .needMore := by
  have framed (live : c.Live) : c.step config clientKey borrowedFault .streaming r = .needMore := by
    rw [Core.step_live live] at waits ⊢
    cases reported : activeFault borrowedFault .streaming c r with
    | none =>
        split at waits
        next => cases waits
        next => exact waits
    | some x =>
        have late : streamFault r = some x := by simpa [activeFault] using reported
        have early : activeFault borrowedFault mode c r ≠ none := by
          unfold activeFault
          split
          next =>
            unfold streamFault at late
            unfold borrowedFault
            repeat' split at late
            all_goals simp_all
          next => simp [late]
        split at waits
        next => cases waits
        next silent => exact absurd silent early
  cases state : c.state with
  | connecting => simpa [Core.step, state] using waits
  | isOpen => exact framed (.inl state)
  | closing => exact framed (.inr state)
  | closed => simp [Core.step, state]

theorem Reading.of_needMore (reading : Reading config clientKey mode c r answers)
    (waits : c.step config clientKey borrowedFault mode r = .needMore) : answers = [] := by
  cases reading with
  | waits => rfl
  | frame stepped | upgrade stepped | cut stepped | header stepped | frameEnd stepped =>
      rw [waits] at stepped
      cases stepped

theorem Reading.of_frame (reading : Reading config clientKey mode c r answers) {size : Nat}
    {event : Option Event}
    (framed : c.step config clientKey borrowedFault mode r = .frame next size event) :
    ∃ rest, answers = (event.map Except.ok).toList ++ rest ∧
      Reading config clientKey .idle next (r.drop size) rest := by
  cases reading with
  | frame stepped behind =>
      rw [framed, Verdict.frame.injEq] at stepped
      obtain ⟨rfl, rfl, rfl⟩ := stepped
      exact ⟨_, rfl, behind⟩
  | waits stepped | upgrade stepped | cut stepped | header stepped | frameEnd stepped =>
      rw [framed] at stepped
      cases stepped

/-- The ways in which a reading takes a refusal, and the answers behind it. -/
inductive Refused (config : WsConfig) (clientKey : Text) (mode : Mode) (c : Core) (r : Bytes)
    (next : Core) : WsError → List Answer → Prop where
  | upgrade {error : WsError} : c.state = .connecting →
      Refused config clientKey mode c r next error []
  | cut {e : FrameError} : ¬ HeaderComplete r →
      Refused config clientKey mode c r next (.frame e) []
  | header {error : WsError} {h : FrameHeader} {size : Nat} : error.refusesHeader = true →
      parseHeader r = .ok (some (h, size)) → readInPlace mode c h = false →
      r.length < size + h.payloadLen → Refused config clientKey mode c r next error []
  | frameEnd {error : WsError} {h : FrameHeader} {size : Nat} {answers : List Answer} :
      error.refusesFrame = true → parseHeader r = .ok (some (h, size)) →
      size + h.payloadLen ≤ r.length → readInPlace mode c h = false →
      Reading config clientKey .idle (next.behind error) (r.drop (size + h.payloadLen)) answers →
      Refused config clientKey mode c r next error answers

theorem Reading.of_fail (reading : Reading config clientKey mode c r answers) {error : WsError}
    (failed : c.step config clientKey borrowedFault mode r = .fail next error) :
    ∃ rest, answers = .error error :: rest ∧
      Refused config clientKey mode c r next error rest := by
  cases reading with
  | waits stepped | frame stepped =>
      rw [failed] at stepped
      cases stepped
  | upgrade stepped connecting =>
      rw [failed, Verdict.fail.injEq] at stepped
      obtain ⟨rfl, rfl⟩ := stepped
      exact ⟨[], rfl, .upgrade connecting⟩
  | cut stepped incomplete =>
      rw [failed, Verdict.fail.injEq] at stepped
      obtain ⟨rfl, rfl⟩ := stepped
      exact ⟨[], rfl, .cut incomplete⟩
  | header stepped kind parsed streams short =>
      rw [failed, Verdict.fail.injEq] at stepped
      obtain ⟨rfl, rfl⟩ := stepped
      exact ⟨[], rfl, .header kind parsed streams short⟩
  | frameEnd stepped kind parsed bound streams behind =>
      rw [failed, Verdict.fail.injEq] at stepped
      obtain ⟨rfl, rfl⟩ := stepped
      exact ⟨_, rfl, .frameEnd kind parsed bound streams behind⟩

theorem Reading.stutter (reading : Reading config clientKey mode c r answers)
    (same : c.step config clientKey borrowedFault mode r =
      c.step config clientKey borrowedFault .streaming r) :
    Reading config clientKey .streaming c r answers := by
  have streams (h : FrameHeader) : readInPlace .streaming c h = false := by simp [readInPlace]
  cases reading with
  | waits stepped => exact .waits (same.symm.trans stepped)
  | frame stepped behind => exact .frame (same.symm.trans stepped) behind
  | upgrade stepped connecting => exact .upgrade (same.symm.trans stepped) connecting
  | cut stepped incomplete => exact .cut (same.symm.trans stepped) incomplete
  | header stepped kind parsed inPlace short =>
      exact .header (same.symm.trans stepped) kind parsed (streams _) short
  | frameEnd stepped kind parsed bound inPlace behind =>
      exact .frameEnd (same.symm.trans stepped) kind parsed bound (streams _) behind

end Readings

namespace WsClient

/-- What a failing turn leaves behind owes the rest of the answers. -/
theorem owes_of_aftermath {config : WsConfig} {clientKey : Text} {mode : Mode} {c next : Core}
    {r : Bytes} {rest : List Answer} {error : WsError} {w' : WsClient}
    (stepped : c.step config clientKey borrowedFault mode r = .fail next error)
    (refused : Refused config clientKey mode c r next error rest)
    (after : Aftermath config clientKey mode c r next error w') : w'.Owes rest := by
  cases after with
  | upgrade upgrade closed =>
      cases refused with
      | upgrade | cut | header => exact .closed closed
      | frameEnd kind => simp [WsError.refusesFrame.not_upgrade kind] at upgrade
  | inPlace parsed inPlace plain =>
      cases refused with
      | upgrade connecting => simp [readInPlace, connecting] at inPlace
      | cut => exact absurd rfl (plain _)
      | header _ parsed' streams | frameEnd _ parsed' _ streams =>
          rw [parsed, Except.ok.injEq, Option.some.injEq, Prod.mk.injEq] at parsed'
          obtain ⟨rfl, -⟩ := parsed'
          rw [inPlace] at streams
          cases streams
  | malformed bad position =>
      cases refused with
      | upgrade connecting => cases Core.step_connecting_fail connecting stepped
      | header kind | frameEnd kind => cases kind
      | cut incomplete =>
          have holds := position.resolve_left incomplete
          -- in `Closing` the parser waits for the rest of the header
          have waits : next.step config clientKey borrowedFault .idle r = .needMore := by
            have ending := Core.step_fail_ending stepped
            cases state : next.state with
            | closed => simp [Core.step, state]
            | closing =>
                refine Core.step_of_incomplete (.inr state) ?_ incomplete
                simp [activeFault, state, streamFault, incomplete]
            | connecting | isOpen => simp [ConnState.Ending, ConnState.rank, state] at ending
          exact owes_of_reading holds.stands (.waits waits)
  | header kind parsed skipping behind =>
      cases refused with
      | upgrade connecting =>
          have upgrade := Core.step_connecting_fail connecting stepped
          simp [WsError.refusesHeader.not_upgrade kind] at upgrade
      | cut => cases kind
      | frameEnd kind' => simp [WsError.refusesHeader.not_refusesFrame kind] at kind'
      | header _ parsed' _ short =>
          rw [parsed, Except.ok.injEq, Option.some.injEq, Prod.mk.injEq] at parsed'
          obtain ⟨rfl, rfl⟩ := parsed'
          obtain ⟨rfl, bound⟩ := parseHeader_some_minNeeded parsed
          have consumed : w'.Consumed (r.take (minNeeded r)) := by
            unfold Consumed
            rw [skipping.parser]
            have complete := headerComplete_of_some parsed
            have front := (parseHeader_take complete).trans parsed
            exact ⟨_, _, front, by rw [minNeeded_take complete]⟩
          refine .skips skipping consumed ?_
          rw [behind, List.length_drop]
          omega
  | frameEnd kind parsed bound holds =>
      cases refused with
      | upgrade connecting =>
          have upgrade := Core.step_connecting_fail connecting stepped
          simp [WsError.refusesFrame.not_upgrade kind] at upgrade
      | cut => cases kind
      | header kind' => simp [WsError.refusesHeader.not_refusesFrame kind'] at kind
      | frameEnd _ parsed' _ _ reading =>
          rw [parsed, Except.ok.injEq, Option.some.injEq, Prod.mk.injEq] at parsed'
          obtain ⟨rfl, rfl⟩ := parsed'
          exact owes_of_reading holds.stands reading

/-- The loop of a poll gives the first answer of the reading. -/
theorem Reading.pollLoop {config : WsConfig} {clientKey : Text} {w : WsClient} {mode : Mode}
    {c : Core} {r : Bytes} {answers : List Answer}
    (reading : Reading config clientKey mode c r answers) (within : w.Within)
    (holds : Holds config clientKey w mode c r) : Polled w.pollLoop answers := by
  fun_induction WsClient.pollLoop w generalizing mode c r answers with
  | case1 w w₁ turned ih =>
      have spec := pollTurn_spec borrowedFault_lawful holds rfl
      have kept := w.pollTurn_keepsWithin within
      rw [turned] at spec kept
      cases spec with
      | stutter holds' sameStep notDirect => exact ih (reading.stutter sameStep) kept holds'
      | quiet stepped holds' inMessage =>
          obtain ⟨rest, rfl, behind⟩ := reading.of_frame stepped
          exact ih behind kept holds'
  | case2 w w₁ result turned =>
      have spec := pollTurn_spec borrowedFault_lawful holds rfl
      rw [turned] at spec
      cases spec with
      | @waits mode' stepped holds' =>
          obtain rfl := reading.of_needMore stepped
          refine .silent (owes_of_reading holds'.stands (.waits ?_))
          -- the mode changes only when the header goes into the parser
          obtain rfl | inside := pollTurn_silent turned
          · have same : mode' = mode := by
              have before := holds.input
              have after := holds'.input
              unfold HoldsInput at before after
              split at before <;> simp_all
            rw [same]
            exact stepped
          · have streaming : mode' = .streaming := by
              have after := holds'.input
              unfold HoldsInput at after
              split at after <;> simp_all
            rw [streaming]
            exact Core.step_streaming stepped
      | event stepped stands =>
          obtain ⟨rest, rfl, behind⟩ := reading.of_frame stepped
          exact .answer (owes_of_reading stands behind)
      | fails stepped wire =>
          have after := pollTurn_aftermath within holds stepped turned wire
          obtain ⟨rest, rfl, refused⟩ := reading.of_fail stepped
          exact .answer (owes_of_aftermath stepped refused after)

theorem Owes.pollEvent {w : WsClient} {answers : List Answer} (owes : w.Owes answers)
    (within : w.Within) : Polled w.pollEvent answers := by
  cases owes with
  | reads stands reading => exact Reading.pollLoop reading within.clearAfterEmit stands.holds
  | skips skipping consumed short =>
      obtain ⟨w', polled, owes⟩ := skipping.pollLoop consumed short
      rw [WsClient.pollEvent, clearAfterEmit_idle skipping.cleared, polled]
      exact .silent owes
  | closed closed =>
      rw [pollEvent_closed closed]
      exact .silent (.closed (w.clearAfterEmit_state.trans closed))

end WsClient

/-! ### Each frame is answered once -/

section Readings

variable {config : WsConfig} {clientKey : Text} {mode : Mode} {c next : Core} {r : Bytes}
  {answers : List Answer}

end Readings

/-! ## Runs -/

omit [AcceptDigest] in
/-- The bytes of a position, and the part of them that the client has consumed. -/
theorem Holds.consumed {config : WsConfig} {clientKey : Text} {w : WsClient} {mode : Mode}
    {c : Core} {r : Bytes} (holds : Holds config clientKey w mode c r) :
    ∃ head, w.Consumed head ∧ r = head ++ w.recvBuf := by
  have input := holds.input
  unfold HoldsInput at input
  unfold WsClient.Consumed
  cases parser : w.parser with
  | idle =>
      simp only [parser] at input
      exact ⟨[], rfl, input.2.1⟩
  | headerPartial filled =>
      simp only [parser] at input
      exact ⟨filled, rfl, input.2.2.1⟩
  | payload remaining =>
      simp only [parser] at input
      obtain ⟨-, -, head, got, h, inFrame⟩ := input
      have whole : parseHeader (head ++ got) = .ok (some (h, head.length)) := by
        rw [parseHeader_append (by simp [inFrame.parsed]), inFrame.parsed]
      refine ⟨head ++ got, ⟨h, head.length, whole, ?_⟩, inFrame.bytes⟩
      rw [List.length_append, Nat.add_assoc, inFrame.remaining]

namespace WsClient

/-- Beginning the handshake does not touch the position. -/
theorem Regular.beginHandshake {w : WsClient} (regular : w.Regular) :
    w.beginHandshake.1.Regular := by
  obtain same | ⟨tx, begun, connecting, -, queued⟩ := w.beginHandshake_cases
  · rw [same]
    exact regular
  · rw [begun]
    obtain ⟨answers, owes⟩ := regular
    refine ⟨answers, ?_⟩
    cases owes with
    | @reads mode c r answers stands reading =>
        have moved : Stands w.config w.clientKey { w with tx, handshakeStarted := true } mode
            { c with state := w.state, outbound := tx.outbound } r :=
          stands.rewire w.state fun live => by rwa [stands.state_eq]
        have outbound : tx.outbound = c.outbound := by
          rw [← stands.holds.wire.outbound, clearAfterEmit_tx, TxQueue.outbound, queued,
            TxQueue.outbound]
        have same : { c with state := w.state, outbound := tx.outbound } = c := by
          rw [stands.state_eq, outbound]
        rw [same] at moved
        exact owes_of_reading moved reading
    | skips skipping =>
        rw [skipping.closing] at connecting
        cases connecting
    | closed closed =>
        rw [closed] at connecting
        cases connecting

theorem Regular.pollEvent {w : WsClient} (regular : w.Regular) (within : w.Within) :
    w.pollEvent.1.Regular := by
  obtain ⟨answers, owes⟩ := regular
  have polled := owes.pollEvent within
  generalize w.pollEvent = out at polled
  cases polled with
  | silent owes' => exact ⟨[], owes'⟩
  | answer owes' => exact ⟨_, owes'⟩

end WsClient

end Regular

/-! ## Two refused frames -/

section Jam

variable [AcceptDigest]

end Jam

deriving instance DecidableEq for Verdict

namespace Sample

attribute [local instance] digest

/-- The core in front of the upgrade response. -/
def fresh : Core := ⟨.connecting, none, []⟩

/-- The core behind it. -/
def upgraded : Core := ⟨.isOpen, none, []⟩

def feedMalformed : List SessionCall :=
  [.beginHandshake, .call (.feedRecv response), .call .pollEvent, .call (.feedRecv [0xC1, 0x00]),
    .call .pollEvent]

/-- A client that has reported a malformed header once. -/
def jammed : Session := (sessionMachine.run ⟨created, []⟩ feedMalformed).1

end Sample

attribute [local instance] Sample.digest

end Talaris.Ws
