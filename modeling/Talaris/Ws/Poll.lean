import Talaris.Ws.Refine

/-!
# Polling refines the decoder

A turn of the poll loop keeps the client where it stands or makes exactly the step of
the decoder.  From this follows what one call of `pollEvent` and a whole round of
polling do.
-/

namespace Talaris.Ws

open Talaris.Http

/-! ## One turn of the poll loop -/

section Turn

variable [AcceptDigest] {config : WsConfig} {clientKey : Text} {fault : Fault} {mode : Mode}
  {w : WsClient} {c : Core} {r : Bytes}

theorem Core.step_live (live : c.Live) :
    c.step config clientKey fault mode r =
      match activeFault fault mode c r with
      | some (e, reason) =>
          .fail (c.queueClose CloseCode.protocolError.asU16 reason) (.frame e)
      | none => if BadHeader r then .needMore else c.sound config r := by
  obtain ⟨state, message, outbound⟩ := c
  obtain isOpen | closing := live
  · obtain rfl : state = .isOpen := isOpen
    rfl
  · obtain rfl : state = .closing := closing
    rfl

/-- With a sound header every path goes by the frame. -/
theorem Core.step_of_parsed (lawful : fault.Lawful) (live : c.Live) {h : FrameHeader} {size : Nat}
    (parsed : parseHeader r = .ok (some (h, size))) (unmasked : h.mask = none) :
    c.step config clientKey fault mode r = c.body config h size r := by
  have good : BadHeader r = false := by simp [badHeader_of_some parsed, unmasked]
  have silent : activeFault fault mode c r = none := by
    cases reported : activeFault fault mode c r with
    | none => rfl
    | some x =>
        have := (activeFault_lawful lawful mode c).malformed reported
        simp [good] at this
  simp [step_live live, silent, good, sound, parsed]

/-- Without the whole header a path that is silent waits. -/
theorem Core.step_of_incomplete (live : c.Live) (silent : activeFault fault mode c r = none)
    (incomplete : ¬ HeaderComplete r) : c.step config clientKey fault mode r = .needMore := by
  rw [step_live live, silent]
  dsimp only
  split
  next => rfl
  next =>
    unfold sound
    split
    next h size parsed => exact absurd (headerComplete_of_some parsed) incomplete
    next => rfl

/-- What a turn of the poll loop does to a client in `c` with bytes `r`. -/
inductive TurnSpec (config : WsConfig) (clientKey : Text) (fault : Fault) (mode : Mode) (c : Core)
    (r : Bytes) : WsClient → WsClient.Turn → Prop where
  | stutter {w' : WsClient} (holds : Holds config clientKey w' .streaming c r)
      (sameStep : c.step config clientKey fault mode r =
        c.step config clientKey fault .streaming r)
      (notDirect : isDirect config mode c r = false) :
      TurnSpec config clientKey fault mode c r w' .again
  | quiet {w' : WsClient} {next : Core} {size : Nat}
      (stepped : c.step config clientKey fault mode r = .frame next size none)
      (holds : Holds config clientKey w' .idle next (r.drop size))
      (inMessage : next.message ≠ none) : TurnSpec config clientKey fault mode c r w' .again
  | waits {w' : WsClient} {mode' : Mode}
      (stepped : c.step config clientKey fault mode r = .needMore)
      (holds : Holds config clientKey w' mode' c r) :
      TurnSpec config clientKey fault mode c r w' (.done none)
  | event {w' : WsClient} {next : Core} {size : Nat} {event : Event}
      (stepped : c.step config clientKey fault mode r = .frame next size (some event))
      (stands : Stands config clientKey w' .idle next (r.drop size)) :
      TurnSpec config clientKey fault mode c r w' (.done (some (.ok event)))
  | fails {w' : WsClient} {next : Core} {error : WsError}
      (stepped : c.step config clientKey fault mode r = .fail next error)
      (wire : SameWire w' next) :
      TurnSpec config clientKey fault mode c r w' (.done (some (.error error)))

/-- A Close frame for a refused frame, seen from both sides. -/
theorem TurnSpec.refuse {w' : WsClient} {code : Nat} {reason : String} {error : WsError}
    (live : c.Live) (same : SameWire w' c)
    (stepped : c.step config clientKey fault mode r = .fail (c.queueClose code reason) error) :
    TurnSpec config clientKey fault mode c r (w'.queueClose code reason).closeOnError
      (.done (some (.error error))) :=
  .fails stepped ((same.queueClose code reason).closeOnError (c.queueClose_closing live code reason))

/-! ### Borrowed frames -/

/-- The borrowed path on a final data frame. -/
theorem pollTurn_borrowed (lawful : fault.Lawful) {h : FrameHeader} {size : Nat}
    (holds : Holds config clientKey w .idle c w.recvBuf)
    (ready : ¬ (w.state ≠ .isOpen ∨ !w.parser.isIdle ∨ w.msgOpcode.isSome ∨ w.recvBuf.isEmpty))
    (parsed : parseHeader w.recvBuf = .ok (some (h, size))) (unmasked : h.mask = none)
    (fits : ¬ (!h.fin ∨ (h.opcode ≠ .text ∧ h.opcode ≠ .binary)))
    (isOpen : c.state = .isOpen) (noMessage : c.message = none) :
    TurnSpec config clientKey fault .idle c w.recvBuf w.pollTurn.1 w.pollTurn.2 := by
  obtain rfl := holds.config
  have live : c.Live := .inl isOpen
  have notClosed : w.state ≠ .closed := by simp [holds.wire.state, isOpen]
  have notMasked : ¬ h.mask.isSome = true := by simp [unmasked]
  have fin : h.fin = true := by
    by_contra short
    exact fits (.inl (by simpa using short))
  obtain ⟨kind, opcode⟩ : ∃ kind : DataKind, h.opcode = kind.toOpCode := by
    by_cases text : h.opcode = .text
    · exact ⟨.text, text⟩
    · refine ⟨.binary, ?_⟩
      by_contra binary
      exact fits (.inr ⟨text, binary⟩)
  have isText : h.opcode = .text ↔ kind = .text := by
    rw [opcode]
    cases kind <;> simp [DataKind.toOpCode]
  have stepped : c.step w.config clientKey fault .idle w.recvBuf = _ :=
    (Core.step_of_parsed lawful live parsed unmasked).trans
      (Core.body_unfragmented parsed fin opcode noMessage)
  have tried : w.tryEmitBorrowedData = _ := WsClient.tryEmitBorrowedData.eq_1 w
  rw [if_neg ready, parsed] at tried
  simp only [if_neg notMasked, if_neg fits, isText] at tried
  rw [WsClient.pollTurn, if_neg notClosed]
  split at stepped
  next large =>
    rw [if_pos large] at tried
    rw [tried]
    exact TurnSpec.refuse live holds.wire stepped
  next small =>
    rw [if_neg small] at tried
    split at stepped
    next large =>
      rw [if_pos large] at tried
      rw [tried]
      exact TurnSpec.refuse live holds.wire stepped
    next small =>
      rw [if_neg small] at tried
      split at stepped
      next short =>
        rw [if_pos short] at tried
        rw [tried]
        exact .waits stepped holds
      next enough =>
        rw [if_neg enough] at tried
        split at stepped
        next invalid =>
          rw [if_pos invalid] at tried
          rw [tried]
          exact TurnSpec.refuse live holds.wire stepped
        next valid =>
          rw [if_neg valid] at tried
          rw [tried]
          have built : ({ w with
              borrowedPayload := some ⟨size, size + h.payloadLen, size + h.payloadLen⟩ }
                : WsClient).buildEvent (if kind = .text then .borrowedText else .borrowedBinary) =
              kind.event ((w.recvBuf.take (size + h.payloadLen)).drop size) := by
            cases kind <;> rfl
          have stands : Stands w.config clientKey
              { w with
                borrowedPayload := some ⟨size, size + h.payloadLen, size + h.payloadLen⟩
                lastEmitted := some (if kind = .text then .borrowedText else .borrowedBinary) }
              .idle c (w.recvBuf.drop (size + h.payloadLen)) := by
            refine ⟨?_, fun borrowed lent => ?_⟩
            · have := holds.skip (w.recvBuf.drop (size + h.payloadLen))
              cases kind <;> exact this
            · simp only [Option.some.injEq] at lent
              simp only [← lent]
              omega
          rw [← built] at stepped
          exact .event stepped stands

theorem pollTurn_ready (lawful : fault.Lawful) (holds : Holds config clientKey w mode c r)
    (agree : activeFault fault mode c r = activeFault borrowedFault mode c r)
    (ready : ¬ (w.state ≠ .isOpen ∨ !w.parser.isIdle ∨ w.msgOpcode.isSome ∨ w.recvBuf.isEmpty)) :
    (w.tryEmitBorrowedData = (w, .ok .fallback) ∧
        ∃ h size, parseHeader r = .ok (some (h, size)) ∧ h.mask = none ∧
          (!h.fin ∨ (h.opcode ≠ .text ∧ h.opcode ≠ .binary))) ∨
      TurnSpec config clientKey fault mode c r w.pollTurn.1 w.pollTurn.2 := by
  obtain ⟨rfl, isOpen, noMessage, rfl, parser⟩ := holds.ready ready
  have live : c.Live := .inl isOpen
  have notClosed : w.state ≠ .closed := by simp [holds.wire.state, isOpen]
  have early : activeFault borrowedFault .idle c = borrowedFault := by
    simp [activeFault, isOpen, noMessage]
  rw [early] at agree
  have stepped : c.step config clientKey fault .idle w.recvBuf = _ := Core.step_live live
  rw [agree] at stepped
  cases parsed : parseHeader w.recvBuf with
  | error e =>
      have tried : w.tryEmitBorrowedData =
          (w.queueClose CloseCode.protocolError.asU16 "frame parse error", .error (.frame e)) := by
        rw [WsClient.tryEmitBorrowedData, if_neg ready, parsed]
      simp only [borrowedFault, parsed] at stepped
      rw [WsClient.pollTurn, if_neg notClosed, tried]
      exact .inr (TurnSpec.refuse live holds.wire stepped)
  | ok found =>
      cases found with
      | none =>
          have tried : w.tryEmitBorrowedData = (w, .ok .waitForMore) := by
            rw [WsClient.tryEmitBorrowedData, if_neg ready, parsed]
          rw [WsClient.pollTurn, if_neg notClosed, tried]
          refine .inr (.waits ?_ holds)
          rw [stepped]
          simp [borrowedFault, parsed, Core.sound]
      | some found =>
          obtain ⟨h, size⟩ := found
          by_cases masked : h.mask.isSome = true
          · have tried : w.tryEmitBorrowedData =
                (w.queueClose CloseCode.protocolError.asU16 "server sent masked frame",
                  .error (.frame .serverSentMaskedFrame)) := by
              rw [WsClient.tryEmitBorrowedData, if_neg ready, parsed]
              simp only [if_pos masked]
            simp only [borrowedFault, parsed, if_pos masked] at stepped
            rw [WsClient.pollTurn, if_neg notClosed, tried]
            exact .inr (TurnSpec.refuse live holds.wire stepped)
          · have unmasked : h.mask = none := by simpa using masked
            by_cases other : !h.fin ∨ (h.opcode ≠ .text ∧ h.opcode ≠ .binary)
            · refine .inl ⟨?_, h, size, rfl, unmasked, other⟩
              rw [WsClient.tryEmitBorrowedData, if_neg ready, parsed]
              simp only [if_neg masked, if_pos other]
            · refine .inr (pollTurn_borrowed lawful holds ready parsed unmasked other ?_ noMessage)
              exact isOpen

/-! ### The upgrade response -/

theorem afterAdvance_handshake (holds : Holds config clientKey w mode c r)
    (connecting : c.state = .connecting) :
    TurnSpec config clientKey fault mode c r (WsClient.afterAdvance w.advanceHandshake).1
      (WsClient.afterAdvance w.advanceHandshake).2 := by
  obtain ⟨parser, rfl, rfl, message⟩ :
      w.parser = .idle ∧ mode = .idle ∧ r = w.recvBuf ∧ HoldsMessage w c.message := by
    have input := holds.input
    unfold HoldsInput at input
    cases parser : w.parser with
    | idle => simpa [parser] using input
    | headerPartial filled => simp [parser, connecting] at input
    | payload remaining => simp [parser, connecting] at input
  obtain rfl := holds.config
  obtain rfl := holds.clientKey
  have stepped : c.step w.config w.clientKey fault .idle w.recvBuf =
      c.handshake w.config w.clientKey w.recvBuf := by
    simp only [Core.step, connecting]
  unfold Core.handshake at stepped
  unfold WsClient.advanceHandshake
  cases parsed : parseResponse w.recvBuf with
  | error e =>
      simp only [parsed] at stepped ⊢
      exact .fails stepped (holds.wire.closedOnError connecting)
  | ok found =>
      cases found with
      | none =>
          simp only [parsed] at stepped ⊢
          exact .waits stepped holds
      | some found =>
          obtain ⟨response, bodyStart⟩ := found
          simp only [parsed] at stepped ⊢
          cases verdict : verifyUpgradeResponse response w.clientKey w.config.subprotocols with
          | error e =>
              simp only [verdict] at stepped ⊢
              exact .fails stepped (holds.wire.closedOnError connecting)
          | ok _ =>
              simp only [verdict] at stepped ⊢
              refine .event stepped ⟨?_, fun borrowed lent => ?_⟩
              · exact ⟨rfl, rfl, rfl, holds.unborrowed, ⟨rfl, holds.wire.outbound⟩,
                  .idle parser rfl message⟩
              · have := holds.unborrowed.symm.trans lent
                cases this

/-! ### Headers -/

/-- The streaming parser at a header: it reports, waits, or goes on to the payload. -/
theorem afterAdvance_header {filled : Bytes} (lawful : fault.Lawful)
    (holds : Holds config clientKey w mode c r) (live : c.Live)
    (late : activeFault fault mode c r = streamFault r)
    (notDirect : isDirect config mode c r = false)
    (fed : feedOne w.parser w.recvBuf = feedHeader filled w.recvBuf 0)
    (bytes : r = filled ++ w.recvBuf) (fits : filled.length ≤ minNeeded filled)
    (message : HoldsMessage w c.message) :
    TurnSpec config clientKey fault mode c r (WsClient.afterAdvance w.advanceFrame).1
      (WsClient.afterAdvance w.advanceFrame).2 := by
  obtain rfl := holds.config
  have connected : c.state ≠ .connecting := by
    obtain isOpen | closing := live <;> simp_all
  have within : filled.length ≤ minNeeded r := by
    rw [bytes]
    exact Nat.le_trans fits (minNeeded_le_append filled w.recvBuf)
  have stepped : c.step w.config clientKey fault mode r = _ := Core.step_live live
  rw [late] at stepped
  rw [feedHeader_eq filled w.recvBuf 0 (bytes ▸ within), ← bytes, Nat.zero_add, Nat.zero_add] at fed
  by_cases complete : HeaderComplete r
  · rw [if_pos complete, parseFilled, parseHeader_take complete] at fed
    have rest : (filled ++ w.recvBuf).drop (minNeeded r) =
        w.recvBuf.drop (minNeeded r - filled.length) := by
      rw [List.drop_append, List.drop_eq_nil_of_le within, List.nil_append]
    rw [← bytes] at rest
    cases parsed : parseHeader r with
    | error e =>
        rw [parsed] at fed
        simp only [streamFault, if_pos complete, parsed] at stepped
        rw [WsClient.advanceFrame, fed]
        exact TurnSpec.refuse live ⟨holds.wire.state, holds.wire.outbound⟩ stepped
    | ok found =>
        cases found with
        | none => exact absurd parsed (parseHeader_ne_none complete)
        | some found =>
            obtain ⟨h, size⟩ := found
            obtain ⟨rfl, bound⟩ := parseHeader_some_minNeeded parsed
            rw [parsed] at fed
            dsimp only at fed
            by_cases masked : h.mask.isSome = true
            · rw [if_pos masked] at fed
              simp only [streamFault, if_pos complete, parsed, if_pos masked] at stepped
              rw [WsClient.advanceFrame, fed]
              exact TurnSpec.refuse live ⟨holds.wire.state, holds.wire.outbound⟩ stepped
            · rw [if_neg masked] at fed
              have unmasked : h.mask = none := by simpa using masked
              have body : c.step w.config clientKey fault mode r =
                  c.body w.config h (minNeeded r) r :=
                Core.step_of_parsed lawful live parsed unmasked
              have sameStep : c.step w.config clientKey fault mode r =
                  c.step w.config clientKey fault .streaming r :=
                body.trans (Core.step_of_parsed lawful live parsed unmasked).symm
              rw [WsClient.advanceFrame, fed]
              dsimp only
              obtain ⟨w', code, reason, error, started, wire, -, refused⟩ |
                  ⟨ctlBuf, msgOpcode, msgBuf, started, payload, allowed⟩ :=
                onFrameStart_spec (w := { w with
                  parser := .payload h.payloadLen
                  recvBuf := w.recvBuf.drop (minNeeded r - filled.length) })
                  ⟨holds.wire.state, holds.wire.outbound⟩ message h (minNeeded r) r
              · rw [started]
                exact TurnSpec.refuse live wire (body.trans refused)
              · rw [started]
                refine .stutter ⟨rfl, holds.clientKey, holds.cleared, holds.unborrowed,
                  ⟨holds.wire.state, holds.wire.outbound⟩, ?_⟩ sameStep notDirect
                refine .payload rfl connected (?_ : InFrame _ _ _ _ (r.take (minNeeded r)) [] h)
                refine ⟨?_, unmasked, ?_, by simp, allowed, rfl, rfl, payload⟩
                · rw [parseHeader_take complete, parsed, minNeeded_take complete]
                · have whole := List.take_append_drop (minNeeded r) r
                  rw [rest] at whole
                  rw [List.append_nil]
                  exact whole.symm
  · rw [if_neg complete] at fed
    have silent : activeFault fault mode c r = none := by
      rw [late, streamFault, if_neg complete]
    have kept : Holds w.config clientKey
        { w with
          parser := .headerPartial r
          recvBuf := w.recvBuf.drop w.recvBuf.length } .streaming c r := by
      refine ⟨rfl, holds.clientKey, holds.cleared, holds.unborrowed,
        ⟨holds.wire.state, holds.wire.outbound⟩, ?_⟩
      refine .headerPartial rfl connected (by simp) ?_ message
      unfold HeaderComplete at complete
      omega
    rw [WsClient.advanceFrame, fed]
    exact .waits (Core.step_of_incomplete live silent complete) kept

/-! ### Payloads -/

/-- The streaming parser inside a frame: it takes payload, waits, or ends the frame. -/
theorem afterAdvance_payload (lawful : fault.Lawful) {remaining : Nat} {head got : Bytes}
    {h : FrameHeader} (holds : Holds config clientKey w .streaming c r) (live : c.Live)
    (parser : w.parser = .payload remaining) (inFrame : InFrame w c r remaining head got h) :
    TurnSpec config clientKey fault .streaming c r (WsClient.afterAdvance w.advanceFrame).1
      (WsClient.afterAdvance w.advanceFrame).2 := by
  obtain ⟨parsed, unmasked, rfl, rem, allowed, curOpcode, curFin, payload⟩ := inFrame
  obtain rfl := holds.config
  obtain rfl := holds.clientKey
  have connected : c.state ≠ .connecting := by
    obtain isOpen | closing := live <;> simp_all
  have header : parseHeader (head ++ got ++ w.recvBuf) = .ok (some (h, head.length)) := by
    rw [List.append_assoc, parseHeader_append (by simp [parsed]), parsed]
  have stepped : c.step w.config w.clientKey fault .streaming (head ++ got ++ w.recvBuf) = _ :=
    Core.step_of_parsed lawful live header unmasked
  unfold WsClient.advanceFrame
  rw [parser, feedOne]
  by_cases done : remaining = 0
  · subst done
    have spec := onFrameEnd_spec (w := { w with parser := .idle, recvBuf := w.recvBuf.drop 0 })
      head rfl rfl holds.cleared holds.unborrowed ⟨holds.wire.state, holds.wire.outbound⟩ live rfl
      curOpcode curFin allowed (payload.congr rfl rfl rfl rfl) rem
    have rest : (head ++ got ++ w.recvBuf).drop (head.length + h.payloadLen) = w.recvBuf := by
      rw [← rem, Nat.add_zero, ← List.length_append, List.drop_left]
    simp only [beq_self_eq_true, if_true]
    generalize ({ w with parser := .idle, recvBuf := w.recvBuf.drop 0 } : WsClient).onFrameEnd =
      ended at spec
    cases spec with
    | @quiet w' next framed boundary bytes inMessage =>
        have left : (head ++ got ++ w.recvBuf).drop (head.length + h.payloadLen) = w'.recvBuf :=
          rest.trans bytes.symm
        refine .quiet (stepped.trans framed) ?_ inMessage
        rw [left]
        exact boundary.holds
    | @event w' next kind framed boundary bytes streamed whole =>
        have left : (head ++ got ++ w.recvBuf).drop (head.length + h.payloadLen) = w'.recvBuf :=
          rest.trans bytes.symm
        refine .event (stepped.trans framed) ?_
        rw [left]
        exact boundary.emit streamed whole
    | fails failed wire closing =>
        exact .fails (stepped.trans failed) (wire.closeOnError closing)
  · have some : (remaining == 0) = false := by simpa using done
    rw [some]
    by_cases empty : w.recvBuf = []
    · have short : (head ++ got ++ w.recvBuf).length < head.length + h.payloadLen := by
        simp only [empty, List.length_append, List.length_nil]
        omega
      have waiting : c.body w.config h head.length (head ++ got ++ w.recvBuf) = .needMore := by
        cases payload with
        | control isControl ctlBuf message =>
            rw [Core.body, if_neg allowed, if_pos isControl, if_pos short]
        | data isData joined msgOpcode msgBuf fits =>
            rw [Core.body_of_joins isData joined allowed, Core.data, if_neg fits, if_pos short]
      have kept : Holds w.config w.clientKey
          { w with parser := .payload remaining, recvBuf := w.recvBuf.drop 0 } .streaming c
          (head ++ got ++ w.recvBuf) := by
        refine ⟨rfl, rfl, holds.cleared, holds.unborrowed,
          ⟨holds.wire.state, holds.wire.outbound⟩, ?_⟩
        exact .payload rfl connected ⟨parsed, unmasked, rfl, rem, allowed, curOpcode, curFin,
          payload.congr rfl rfl rfl rfl⟩
      have isEmpty : w.recvBuf.isEmpty = true := by simp [empty]
      rw [isEmpty]
      exact .waits (stepped.trans waiting) kept
    · have notEmpty : w.recvBuf.isEmpty = false := by simpa using empty
      rw [notEmpty]
      simp only [Bool.false_eq_true, if_false]
      refine .stutter ?_ rfl (by simp [isDirect])
      obtain ⟨ctlBuf, msgBuf, taken, payload⟩ := takePayload_spec (w := { w with
          parser := .payload (remaining - min w.recvBuf.length remaining)
          recvBuf := w.recvBuf.drop (min w.recvBuf.length remaining) }) curOpcode
        (payload.congr rfl rfl rfl rfl) (w.recvBuf.take (min w.recvBuf.length remaining))
      rw [taken]
      refine ⟨rfl, rfl, holds.cleared, holds.unborrowed,
        ⟨holds.wire.state, holds.wire.outbound⟩, ?_⟩
      refine .payload rfl connected ⟨parsed, unmasked, ?_, ?_, allowed, curOpcode, curFin, payload⟩
      · dsimp only [WsClient.afterAdvance]
        rw [← List.append_assoc, List.append_assoc (head ++ got), List.take_append_drop]
      · simp only [List.length_append, List.length_take]
        omega

/-! ### The turn -/

theorem afterAdvance_frame (lawful : fault.Lawful) (holds : Holds config clientKey w mode c r)
    (live : c.Live) (late : activeFault fault mode c r = streamFault r)
    (notDirect : isDirect config mode c r = false) :
    TurnSpec config clientKey fault mode c r (WsClient.afterAdvance w.advanceFrame).1
      (WsClient.afterAdvance w.advanceFrame).2 := by
  have input := holds.input
  unfold HoldsInput at input
  cases parser : w.parser with
  | idle =>
      rw [parser] at input
      obtain ⟨rfl, bytes, message⟩ := input
      have fed : feedOne w.parser w.recvBuf = feedHeader [] w.recvBuf 0 := by rw [parser, feedOne]
      exact afterAdvance_header lawful holds live late notDirect fed bytes (Nat.zero_le _) message
  | headerPartial filled =>
      rw [parser] at input
      obtain ⟨rfl, -, bytes, fits, message⟩ := input
      have fed : feedOne w.parser w.recvBuf = feedHeader filled w.recvBuf 0 := by
        rw [parser, feedOne]
      exact afterAdvance_header lawful holds live late notDirect fed bytes fits message
  | payload remaining =>
      rw [parser] at input
      obtain ⟨rfl, -, head, got, h, inFrame⟩ := input
      exact afterAdvance_payload lawful holds live parser inFrame

theorem pollTurn_spec (lawful : fault.Lawful) (holds : Holds config clientKey w mode c r)
    (agree : activeFault fault mode c r = activeFault borrowedFault mode c r) :
    TurnSpec config clientKey fault mode c r w.pollTurn.1 w.pollTurn.2 := by
  by_cases closed : w.state = .closed
  · rw [WsClient.pollTurn, if_pos closed]
    refine .waits ?_ holds
    simp only [Core.step, ← holds.wire.state, closed]
  by_cases notReady : w.state ≠ .isOpen ∨ !w.parser.isIdle ∨ w.msgOpcode.isSome ∨ w.recvBuf.isEmpty
  · have tried : w.tryEmitBorrowedData = (w, .ok .fallback) := by
      rw [WsClient.tryEmitBorrowedData, if_pos notReady]
    rw [WsClient.pollTurn, if_neg closed, tried]
    dsimp only [WsClient.advance]
    cases state : w.state with
    | connecting => exact afterAdvance_handshake holds (holds.wire.state ▸ state)
    | closed => exact absurd state closed
    | closing =>
        have closing : c.state = .closing := holds.wire.state ▸ state
        refine afterAdvance_frame lawful holds (.inr closing) ?_ ?_
        · simp [activeFault, closing]
        · simp [isDirect, closing]
    | isOpen =>
        have isOpen : c.state = .isOpen := holds.wire.state ▸ state
        by_cases early : mode = .idle ∧ c.message = none
        · -- only an empty buffer keeps the borrowed path from looking at it
          obtain ⟨rfl, noMessage⟩ := early
          have empty : r = [] := by
            have input := holds.input
            unfold HoldsInput at input
            cases parser : w.parser with
            | headerPartial filled => simp [parser] at input
            | payload remaining => simp [parser] at input
            | idle =>
                rw [parser] at input
                obtain ⟨-, bytes, held, -⟩ := input
                simpa [state, parser, ParserState.isIdle, held, noMessage, bytes] using notReady
          subst empty
          refine afterAdvance_frame lawful holds (.inl isOpen) (agree.trans ?_) ?_
          · simp [activeFault, isOpen, noMessage, borrowedFault, streamFault, HeaderComplete,
              minNeeded, parseHeader]
          · simp [isDirect, directFrame, parseCompleteServerDataFrame, parseServerDataHeaderFast]
        · refine afterAdvance_frame lawful holds (.inl isOpen) ?_ ?_
          · simp only [activeFault, isOpen, true_and, if_neg early]
          · cases mode with
            | streaming => simp [isDirect]
            | idle =>
                have inMessage : c.message.isNone = false := by
                  cases found : c.message with
                  | none => exact absurd ⟨rfl, found⟩ early
                  | some m => rfl
                simp [isDirect, inMessage]
  · obtain ⟨tried, h, size, parsed, unmasked, other⟩ | spec :=
      pollTurn_ready lawful holds agree notReady
    · obtain ⟨rfl, isOpen, noMessage, bytes, parser⟩ := holds.ready notReady
      have state : w.state = .isOpen := holds.wire.state ▸ isOpen
      have advanced : w.advance = w.advanceFrame := by simp only [WsClient.advance, state]
      rw [WsClient.pollTurn, if_neg closed, tried]
      dsimp only
      rw [advanced]
      refine afterAdvance_frame lawful holds (.inl isOpen) ?_ (isDirect_false_of_header parsed other)
      have silent : borrowedFault r = none := by simp [borrowedFault, parsed, unmasked]
      have alsoSilent : streamFault r = none := by
        simp [streamFault, headerComplete_of_some parsed, parsed, unmasked]
      rw [agree, alsoSilent]
      simp [activeFault, isOpen, noMessage, silent]
    · exact spec

end Turn

/-! ## One call of `pollEvent` -/

section Poll

variable [AcceptDigest] {config : WsConfig} {clientKey : Text} {fault : Fault} {mode : Mode}
  {w : WsClient} {c : Core} {r : Bytes}

/-- What one call makes of a client in `c` with bytes `r`: it reads frames without an event up to
the next event, the end of the bytes or an error. -/
inductive PollSpec (config : WsConfig) (clientKey : Text) (fault : Fault) (mode : Mode) (c : Core)
    (r : Bytes) : WsClient × Option (Except WsError Event) → Prop where
  | waits {w' : WsClient} {mode' : Mode} {quiet : List Item} {next : Core} {rest : Bytes}
      (decoded : decode config clientKey fault mode c r = ⟨quiet, next, rest, none⟩)
      (silent : ∀ item ∈ quiet, item.event = none)
      (path : ∀ item ∈ quiet, item.direct = true → isDirect config mode c r = true)
      (holds : Holds config clientKey w' mode' next rest) :
      PollSpec config clientKey fault mode c r (w', none)
  | event {w' : WsClient} {quiet : List Item} {last : Item} {event : Event} {next : Core}
      {rest : Bytes}
      (decoded : decode config clientKey fault mode c r =
        (decode config clientKey fault .idle next rest).prepend (quiet ++ [last]))
      (silent : ∀ item ∈ quiet, item.event = none) (emits : last.event = some event)
      (path : ∀ item ∈ quiet ++ [last], item.direct = true → isDirect config mode c r = true)
      (stands : Stands config clientKey w' .idle next rest) :
      PollSpec config clientKey fault mode c r (w', some (.ok event))
  | fails {w' : WsClient} {quiet : List Item} {next : Core} {rest : Bytes} {error : WsError}
      (decoded : decode config clientKey fault mode c r = ⟨quiet, next, rest, some error⟩)
      (silent : ∀ item ∈ quiet, item.event = none)
      (path : ∀ item ∈ quiet, item.direct = true → isDirect config mode c r = true)
      (wire : SameWire w' next) : PollSpec config clientKey fault mode c r (w', some (.error error))

/-- A frame without an event comes first. -/
theorem PollSpec.cons {next : Core} {size : Nat} {result : WsClient × Option (Except WsError Event)}
    (stepped : c.step config clientKey fault mode r = .frame next size none)
    (inMessage : next.message ≠ none)
    (spec : PollSpec config clientKey fault .idle next (r.drop size) result) :
    PollSpec config clientKey fault mode c r result := by
  have notDirect : isDirect config .idle next (r.drop size) = false := by
    cases held : next.message with
    | none => exact absurd held inMessage
    | some m => simp [isDirect, held]
  have frame := decode_frame stepped
  cases spec with
  | @waits w' mode' quiet final rest decoded silent path holds =>
      rw [decoded] at frame
      refine .waits frame ?_ ?_ holds
      · simpa using silent
      · intro item member direct
        obtain rfl | member := List.mem_cons.mp member
        · exact direct
        · exact absurd (path item member direct) (by simp [notDirect])
  | @event w' quiet last event final rest decoded silent emits path stands =>
      rw [decoded, Decoded.prepend_prepend, ← List.append_assoc] at frame
      refine .event frame ?_ emits ?_ stands
      · simpa using silent
      · intro item member direct
        rw [List.append_assoc] at member
        obtain rfl | member := List.mem_cons.mp member
        · exact direct
        · exact absurd (path item member direct) (by simp [notDirect])
  | @fails w' quiet final rest error decoded silent path wire =>
      rw [decoded] at frame
      refine .fails frame ?_ ?_ wire
      · simpa using silent
      · intro item member direct
        obtain rfl | member := List.mem_cons.mp member
        · exact direct
        · exact absurd (path item member direct) (by simp [notDirect])

/-- Reading on in the streaming parser changes nothing. -/
theorem PollSpec.stutter {result : WsClient × Option (Except WsError Event)}
    (sameStep : c.step config clientKey fault mode r = c.step config clientKey fault .streaming r)
    (notDirect : isDirect config mode c r = false)
    (spec : PollSpec config clientKey fault .streaming c r result) :
    PollSpec config clientKey fault mode c r result := by
  have samePath : isDirect config mode c r = isDirect config .streaming c r := by
    rw [notDirect]
    simp [isDirect]
  have same := decode_mode sameStep samePath
  cases spec with
  | waits decoded silent path holds =>
      exact .waits (same.trans decoded) silent (samePath ▸ path) holds
  | event decoded silent emits path stands =>
      exact .event (same.trans decoded) silent emits (samePath ▸ path) stands
  | fails decoded silent path wire =>
      exact .fails (same.trans decoded) silent (samePath ▸ path) wire

theorem pollLoop_spec (lawful : fault.Lawful) (holds : Holds config clientKey w mode c r)
    (agree : activeFault fault mode c r = activeFault borrowedFault mode c r) :
    PollSpec config clientKey fault mode c r w.pollLoop := by
  fun_induction WsClient.pollLoop w generalizing mode c r with
  | case1 w w₁ turned ih =>
      have spec := pollTurn_spec lawful holds agree
      rw [turned] at spec
      cases spec with
      | stutter holds sameStep notDirect =>
          exact PollSpec.stutter sameStep notDirect (ih holds (by simp [activeFault]))
      | quiet stepped holds inMessage =>
          refine PollSpec.cons stepped inMessage (ih holds ?_)
          simp [activeFault, inMessage]
  | case2 w w₁ result turned =>
      have spec := pollTurn_spec lawful holds agree
      rw [turned] at spec
      cases spec with
      | waits stepped holds => exact .waits (decode_needMore stepped) (by simp) (by simp) holds
      | event stepped stands =>
          have frame := decode_frame stepped
          rw [← List.nil_append [_]] at frame
          exact .event frame (by simp) rfl (by simp) stands
      | fails stepped wire => exact .fails (decode_fail stepped) (by simp) (by simp) wire

/-- `pollEvent` takes the frames of the decoder up to the next event. -/
theorem pollEvent_spec (lawful : fault.Lawful) (stands : Stands config clientKey w mode c r)
    (agree : activeFault fault mode c r = activeFault borrowedFault mode c r) :
    PollSpec config clientKey fault mode c r w.pollEvent :=
  pollLoop_spec lawful stands.holds agree

end Poll

/-! ## Polling to the end -/

/-- `poll_event` until it has nothing more or fails. -/
def WsClient.pollAll [AcceptDigest] (w : WsClient) : WsClient × List Event × Option WsError :=
  match _polled : w.pollEvent with
  | (w, none) => (w, [], none)
  | (w, some (.error e)) => (w, [], some e)
  | (w, some (.ok event)) =>
      let (w, events, error) := pollAll w
      (w, event :: events, error)
  termination_by w.clearAfterEmit.work
  decreasing_by exact pollLoop_event_work _polled

section PollAll

variable [AcceptDigest] {config : WsConfig} {clientKey : Text} {mode : Mode} {w : WsClient}
  {c : Core} {r : Bytes}

/-- Polling to the end is the reading of the borrowed path. -/
theorem pollAll_spec (stands : Stands config clientKey w mode c r) :
    w.pollAll.2.1 = (decode config clientKey borrowedFault mode c r).events ∧
      Reads config clientKey w.pollAll.1 (decode config clientKey borrowedFault mode c r)
        w.pollAll.2.2 := by
  fun_induction WsClient.pollAll w generalizing mode c r with
  | case1 w w₁ polled =>
      have spec := pollEvent_spec borrowedFault_lawful stands rfl
      rw [polled] at spec
      cases spec with
      | waits decoded silent path holds =>
          rw [decoded]
          exact ⟨(filterMap_event_nil silent).symm, holds.reads⟩
  | case2 w w₁ error polled =>
      have spec := pollEvent_spec borrowedFault_lawful stands rfl
      rw [polled] at spec
      cases spec with
      | fails decoded silent path wire =>
          rw [decoded]
          exact ⟨(filterMap_event_nil silent).symm, rfl, wire, by simp⟩
  | case3 w w₁ event polled w₂ events error tail ih =>
      have spec := pollEvent_spec borrowedFault_lawful stands rfl
      rw [polled] at spec
      cases spec with
      | event decoded silent emits path stands =>
          have tailSpec := ih stands
          rw [tail] at tailSpec
          rw [decoded]
          refine ⟨?_, tailSpec.2.prepend _⟩
          simpa [filterMap_event_nil silent, emits] using tailSpec.1

end PollAll

end Talaris.Ws
