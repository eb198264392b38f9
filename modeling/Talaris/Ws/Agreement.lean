import Talaris.Ws.Calls

/-!
# The data-only path against the general one

Both paths read the same frames.  They part only at a malformed header, which the
direct header parser may report before `parseHeader` does: as soon as it sees the
mask bit (`decode_agree`).
-/

namespace Talaris.Ws

/-! ## What is left unread -/

/-- The bytes since the last frame boundary, unless they reach into a payload. -/
def WsClient.pendingInput (w : WsClient) : Bytes :=
  match w.clearAfterEmit.parser with
  | .headerPartial filled => filled ++ w.clearAfterEmit.recvBuf
  | .idle | .payload _ => w.clearAfterEmit.recvBuf

/-- The first bytes of a frame header: its length is known, and it is not all there. -/
def HeaderCut (r : Bytes) : Prop := 2 ≤ r.length ∧ ¬ HeaderComplete r

/-- The same with the mask bit set. -/
def MaskedHeaderCut (r : Bytes) : Prop :=
  HeaderCut r ∧ ∃ b1, r[1]? = some b1 ∧ (b1 &&& 0x80 != 0) = true

/-- A Close frame with its reason text cut off; other frames as they are. -/
def OutFrame.withoutReason (frame : OutFrame) : OutFrame :=
  if frame.opcode = .close then { frame with payload := frame.payload.take 2 } else frame

theorem Core.queueClose_withoutReason (c : Core) (code : Nat) (reason reason' : String) :
    ((c.queueClose code reason).outbound.map OutFrame.withoutReason) =
      (c.queueClose code reason').outbound.map OutFrame.withoutReason := by
  have coded (text : Bytes) : (encodeClosePayload code text).take 2 = toBe 2 code := by
    simp [encodeClosePayload, toBe]
  unfold queueClose
  split
  next => rfl
  next =>
    dsimp only [write]
    split <;> simp [OutFrame.withoutReason, coded]

theorem Core.queueClose_state (c : Core) (code : Nat) (reason reason' : String) :
    (c.queueClose code reason).state = (c.queueClose code reason').state := by
  unfold queueClose
  split
  next => rfl
  next =>
    dsimp only [write]
    split <;> rfl

/-- At an unfinished header the pending input is what follows the frame boundary. -/
theorem Stands.pendingInput {config : WsConfig} {clientKey : Text} {w : WsClient} {mode : Mode}
    {c : Core} {r : Bytes} (stands : Stands config clientKey w mode c r)
    (incomplete : ¬ HeaderComplete r) : w.pendingInput = r := by
  have input := stands.holds.input
  unfold HoldsInput at input
  unfold WsClient.pendingInput
  cases parser : w.clearAfterEmit.parser with
  | idle =>
      simp only [parser] at input
      exact input.2.1.symm
  | headerPartial filled =>
      simp only [parser] at input
      exact input.2.2.1.symm
  | payload remaining =>
      simp only [parser] at input
      obtain ⟨-, -, head, got, h, inFrame⟩ := input
      rw [inFrame.bytes, List.append_assoc] at incomplete
      exact absurd ((headerComplete_of_some inFrame.parsed).append _) incomplete

/-! ## The two early rules -/

/-- Where the direct parser reports, `parseHeader` does so too or waits for a mask key. -/
theorem fastFault_borrowedFault (r : Bytes) :
    fastFault r = borrowedFault r ∨
      ∃ e, fastFault r = some (e, "frame parse error") ∧
        ((∃ x, borrowedFault r = some x) ∨ MaskedHeaderCut r) := by
  unfold fastFault
  split
  next e fast =>
    refine .inr ⟨e, rfl, ?_⟩
    have bad := parseServerDataHeaderFast_error fast
    cases early : borrowedFault r with
    | some x => exact .inl ⟨x, rfl⟩
    | none =>
        have incomplete : ¬ HeaderComplete r := by
          intro complete
          have := borrowedFault_lawful.reports complete bad
          simp [early] at this
        match r with
        | [] => cases bad
        | [_] => cases bad
        | b0 :: b1 :: rest =>
            have accepted : ∀ e, parseHeader (b0 :: b1 :: rest) ≠ .error e := by
              intro e refused
              simp [borrowedFault, refused] at early
            have masked : (b1 &&& 0x80 != 0) = true := by
              simp only [BadHeader, Bool.or_eq_true] at bad
              obtain refused | masked := bad
              · split at refused
                next e parsed => exact absurd parsed (accepted e)
                next => cases refused
              · exact masked
            exact .inr ⟨⟨by simp, incomplete⟩, b1, rfl, masked⟩
  next => exact .inl rfl

section Paths

variable [AcceptDigest] (config : WsConfig) (clientKey : Text)

/-- One frame: the same verdict, or the direct path reports a malformed header. -/
theorem Core.step_agree (c : Core) (mode : Mode) (r : Bytes) :
    c.step config clientKey fastFault mode r = c.step config clientKey borrowedFault mode r ∨
      ∃ e, c.step config clientKey fastFault mode r =
          .fail (c.queueClose CloseCode.protocolError.asU16 "frame parse error") (.frame e) ∧
        ((∃ e' reason, c.step config clientKey borrowedFault mode r =
            .fail (c.queueClose CloseCode.protocolError.asU16 reason) (.frame e')) ∨
          (c.step config clientKey borrowedFault mode r = .needMore ∧ MaskedHeaderCut r)) := by
  by_cases early : mode = .idle ∧ c.state = .isOpen ∧ c.message = none
  · have live : c.Live := .inl early.2.1
    simp only [step_live live, activeFault, if_pos early]
    obtain same | ⟨e, reported, later⟩ := fastFault_borrowedFault r
    · exact .inl (by rw [same])
    · refine .inr ⟨e, by rw [reported], ?_⟩
      obtain ⟨⟨e', reason⟩, found⟩ | cut := later
      · exact .inl ⟨e', reason, by rw [found]⟩
      · have bad := fastFault_lawful.malformed reported
        cases found : borrowedFault r with
        | some x => exact .inl ⟨x.1, x.2, rfl⟩
        | none => exact .inr ⟨by simp [bad], cut⟩
  · simp only [step, activeFault, if_neg early, true_or]

/-- The direct path failed on a malformed header at the frame boundary `core`, and the general
path failed on it too or waits inside it. -/
def Parted (d g : Decoded) (core : Core) : Prop :=
  ∃ e, d.error = some (.frame e) ∧
    d.core = core.queueClose CloseCode.protocolError.asU16 "frame parse error" ∧
    ((∃ e' reason, g.error = some (.frame e') ∧
        g.core = core.queueClose CloseCode.protocolError.asU16 reason) ∨
      (g.error = none ∧ g.core = core ∧ MaskedHeaderCut g.rest))

/-- The readings of the two paths. -/
theorem decode_agree (mode : Mode) (c : Core) (r : Bytes) :
    let d := decode config clientKey fastFault mode c r
    let g := decode config clientKey borrowedFault mode c r
    d.items = g.items ∧ d.rest = g.rest ∧
      ((d.error = g.error ∧ d.core = g.core) ∨ ∃ core, Parted d g core) := by
  dsimp only
  induction length : r.length using Nat.strong_induction_on generalizing mode c r with
  | _ n ih =>
      subst length
      obtain same | ⟨e, reported, later⟩ := c.step_agree config clientKey mode r
      · cases stepped : c.step config clientKey borrowedFault mode r with
        | needMore =>
            rw [decode_needMore (same.trans stepped), decode_needMore stepped]
            exact ⟨rfl, rfl, .inl ⟨rfl, rfl⟩⟩
        | violation =>
            exact absurd stepped (Core.step_ne_violation config clientKey c borrowedFault mode r)
        | fail next error =>
            rw [decode_fail (same.trans stepped), decode_fail stepped]
            exact ⟨rfl, rfl, .inl ⟨rfl, rfl⟩⟩
        | frame next size event =>
            have bound := Core.step_frame_size config clientKey stepped
            have shorter : (r.drop size).length < r.length := by
              simp only [List.length_drop]
              omega
            obtain ⟨items, rest, ending⟩ := ih _ shorter .idle next (r.drop size) rfl
            rw [decode_frame (same.trans stepped), decode_frame stepped]
            exact ⟨by simp only [Decoded.prepend, items], rest, ending⟩
      · rw [decode_fail reported]
        obtain ⟨e', reason, failed⟩ | ⟨waits, cut⟩ := later
        · rw [decode_fail failed]
          exact ⟨rfl, rfl, .inr ⟨c, e, rfl, rfl, .inl ⟨e', reason, rfl, rfl⟩⟩⟩
        · rw [decode_needMore waits]
          exact ⟨rfl, rfl, .inr ⟨c, e, rfl, rfl, .inr ⟨rfl, rfl, cut⟩⟩⟩

/-- What is left of a stream is its end. -/
theorem decode_rest_suffix (fault : Fault) (mode : Mode) (c : Core) (r : Bytes) :
    (decode config clientKey fault mode c r).rest <:+ r := by
  fun_induction decode config clientKey fault mode c r with
  | case1 => exact List.suffix_refl _
  | case2 => exact List.suffix_refl _
  | case3 => exact List.suffix_refl _
  | case4 mode c r next size event stepped ih => exact ih.trans (List.drop_suffix size r)

end Paths

section Agreement

variable [AcceptDigest] {config : WsConfig} {clientKey : Text} {w : WsClient} {mode : Mode}
  {c : Core} {r : Bytes}

/-- A header that stays unfinished lies behind the frame that is being read. -/
theorem Stands.rest_suffix {fault : Fault} (lawful : fault.Lawful)
    (stands : Stands config clientKey w mode c r) (bytes : Bytes)
    (incomplete : ¬ HeaderComplete (decode config clientKey fault mode c (r ++ bytes)).rest) :
    (decode config clientKey fault mode c (r ++ bytes)).rest <:+ w.pendingInput ++ bytes := by
  have input := stands.holds.input
  unfold HoldsInput at input
  unfold WsClient.pendingInput
  cases parser : w.clearAfterEmit.parser with
  | idle =>
      simp only [parser] at input
      obtain ⟨-, rfl, -⟩ := input
      exact decode_rest_suffix config clientKey fault mode c _
  | headerPartial filled =>
      simp only [parser] at input
      obtain ⟨-, -, rfl, -⟩ := input
      exact decode_rest_suffix config clientKey fault mode c _
  | payload remaining =>
      simp only [parser] at input
      obtain ⟨-, connected, head, got, h, parsed, unmasked, rfl, counted, -⟩ := input
      have whole : parseHeader (head ++ got ++ w.clearAfterEmit.recvBuf ++ bytes) =
          .ok (some (h, head.length)) := by
        rw [List.append_assoc, List.append_assoc, parseHeader_append (by simp [parsed]), parsed]
      have complete := headerComplete_of_some whole
      cases stepped : c.step config clientKey fault mode
          (head ++ got ++ w.clearAfterEmit.recvBuf ++ bytes) with
      | needMore =>
          rw [decode_needMore stepped] at incomplete
          exact absurd complete incomplete
      | violation => exact absurd stepped (Core.step_ne_violation config clientKey c fault mode _)
      | fail next error =>
          rw [decode_fail stepped] at incomplete
          exact absurd complete incomplete
      | frame next size event =>
          have live : c.Live := by
            cases state : c.state with
            | connecting => exact absurd state connected
            | isOpen => exact .inl state
            | closing => exact .inr state
            | closed => simp [Core.step, state] at stepped
          rw [Core.step_of_parsed lawful live whole unmasked] at stepped
          obtain ⟨rfl, -⟩ := Core.body_frame_size config stepped
          rw [decode_frame ((Core.step_of_parsed lawful live whole unmasked).trans stepped)]
          refine (decode_rest_suffix config clientKey fault .idle next _).trans ?_
          -- the frame ends behind the payload bytes that are already in
          rw [← counted, ← Nat.add_assoc, ← List.length_append, List.append_assoc, ← List.drop_drop,
            List.drop_left]
          exact List.drop_suffix remaining _

end Agreement

section Messages

@[simp] theorem dataEventOps_push (calls : List DataEvent) (event : DataEvent) :
    dataEventOps.push calls event = calls ++ [event] := rfl

@[simp] theorem dataEventOps_flush (chunkEnd : Bool) (calls : List DataEvent) :
    dataEventOps.flush chunkEnd calls = calls := rfl

@[simp] theorem dataEventOps_single (calls : List DataEvent) (event : DataEvent) :
    dataEventOps.single calls event = calls ++ [event] := rfl

/-- The plain sink sees the data messages of the items read. -/
theorem dataEventOps_deliver (sink : List DataEvent) (items : List Item) :
    dataEventOps.deliver sink items = sink ++ items.filterMap SinkOps.message? := by
  induction items generalizing sink with
  | nil => simp [SinkOps.deliver]
  | cons item items ih =>
      rw [SinkOps.deliver]
      split
      next quiet => simp [quiet, ih]
      next data found => split <;> simp [found, ih]

theorem dataEventOps_delivered (sink : List DataEvent) (d : Decoded) :
    dataEventOps.delivered sink d = sink ++ d.messages := by
  rw [SinkOps.delivered, dataEventOps_flush, dataEventOps_deliver, Decoded.messages,
    Decoded.events, List.filterMap_filterMap]
  rfl

end Messages

/-! ## The two runs -/

section Runs

variable [AcceptDigest] {w : WsClient}

/-- Draining a stream and polling it: the drain does not fail unless polling does or the stream
ends inside the header of a masked frame, and both deliver the same. -/
theorem drainDataEventsFromIngress_agrees (reached : clientMachine.Reach errorFree w)
    (bytes : Bytes) :
    let d := w.drainDataEventsFromIngress bytes
    let g := (w.feedRecv bytes).pollAll
    let messages := g.2.1.filterMap Event.data?
    (errorOf d.2.2 = none →
      g.2.2 = none ∧ d.2.1 = messages ∧ d.1.state = g.1.state ∧
        d.1.tx.outbound = g.1.tx.outbound) ∧
    (g.2.2 ≠ none →
      errorOf d.2.2 ≠ none ∧ d.2.1 = messages ∧ d.1.state = g.1.state ∧
        d.1.tx.outbound.map OutFrame.withoutReason =
          g.1.tx.outbound.map OutFrame.withoutReason) ∧
    (errorOf d.2.2 ≠ none → g.2.2 = none →
      d.2.1 = messages ∧ MaskedHeaderCut g.1.pendingInput ∧
        g.1.pendingInput <:+ w.pendingInput ++ bytes) := by
  obtain ⟨mode, c, r, stands⟩ := reached_stands reached
  have drained : Drained _ _ _ _ _ _ (w.drainDataEventsFromIngress bytes) :=
    drainFromIngress_spec dataEventOps_lawful stands (fun _ => rfl) bytes
  obtain ⟨polled, reads⟩ := pollAll_spec (stands.feedRecv bytes)
  obtain ⟨items, -, ending⟩ := decode_agree w.config w.clientKey mode c (r ++ bytes)
  have suffix := stands.rest_suffix borrowedFault_lawful bytes
  dsimp only
  generalize w.drainDataEventsFromIngress bytes = dOut at drained
  generalize (w.feedRecv bytes).pollAll = gOut at polled reads
  generalize decode w.config w.clientKey fastFault mode c (r ++ bytes) = d at drained items ending
  generalize decode w.config w.clientKey borrowedFault mode c (r ++ bytes) = g at polled reads items ending suffix
  have messages : dOut.2.1 = gOut.2.1.filterMap Event.data? := by
    rw [drained.sink, dataEventOps_delivered, polled]
    simp [Decoded.messages, Decoded.events, items]
  have failed : errorOf dOut.2.2 = d.error := by
    rw [drained.result, Decoded.answer]
    cases d.error <;> rfl
  have dState := drained.reads.wire.state
  have dOutbound := drained.reads.wire.outbound
  have gState := reads.wire.state
  have gOutbound := reads.wire.outbound
  rw [failed, reads.error, dState, gState, dOutbound, gOutbound]
  obtain ⟨error, core⟩ | ⟨core, e, error, dCore, ⟨e', reason, error', gCore⟩ | ⟨error', -, cut⟩⟩ :=
    ending
  · rw [error, core]
    refine ⟨fun clean => ⟨clean, messages, rfl, rfl⟩, fun fails => ⟨fails, messages, rfl, rfl⟩, ?_⟩
    exact fun fails clean => absurd clean fails
  · rw [error, error', dCore, gCore]
    refine ⟨by simp, fun _ => ⟨by simp, messages, ?_, ?_⟩, by simp⟩
    · exact Core.queueClose_state core _ _ _
    · exact Core.queueClose_withoutReason core _ _ _
  · rw [error, error']
    refine ⟨by simp, by simp, fun _ _ => ⟨messages, ?_⟩⟩
    obtain ⟨mode', standsG⟩ := reads.stands error'
    have incomplete := cut.1.2
    rw [standsG.pendingInput incomplete]
    exact ⟨cut, suffix incomplete⟩

end Runs

attribute [local instance] Sample.digest

/-- An upgrade response, a text message and the first two bytes of a masked frame: the drain
fails, polling waits inside the header. -/
theorem drainDataEventsFromIngress_agrees_masked :
    let bytes := Sample.response ++ [0x81, 0x01, 0x41] ++ [0x81, 0xFE]
    errorOf (Sample.client.drainDataEventsFromIngress bytes).2.2 ≠ none ∧
      MaskedHeaderCut (Sample.client.feedRecv bytes).pollAll.1.pendingInput := by
  have fails : errorOf (Sample.client.drainDataEventsFromIngress
      (Sample.response ++ [0x81, 0x01, 0x41] ++ [0x81, 0xFE])).2.2 ≠ none := by decide +kernel
  have waits : (Sample.client.feedRecv
      (Sample.response ++ [0x81, 0x01, 0x41] ++ [0x81, 0xFE])).pollAll.2.2 = none := by
    decide +kernel
  have agrees := drainDataEventsFromIngress_agrees Sample.client_reached
    (Sample.response ++ [0x81, 0x01, 0x41] ++ [0x81, 0xFE])
  exact ⟨fails, (agrees.2.2 fails waits).2.1⟩

end Talaris.Ws
