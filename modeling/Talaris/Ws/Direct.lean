import Talaris.Ws.Poll

/-!
# The drains refine the decoder

The loop over direct frames makes the steps of the decoder with the rule `fastFault`;
between two such runs `pollEvent` does.  Hence every drain reads what `decode` reads
(`drainFromIngress_spec`), and its sink calls are those of `deliver` on the items read.
-/

namespace Talaris.Ws

/-! ## Sinks -/

/-- The event of a data message. -/
def DataEvent.toEvent : DataEvent → Event
  | text payload => .text payload
  | binary payload => .binary payload

@[simp] theorem DataEvent.data?_toEvent (data : DataEvent) : data.toEvent.data? = some data := by
  cases data <;> rfl

namespace SinkOps

variable {σ : Type} (ops : SinkOps σ)

/-- No batch is open. -/
def Settled (sink : σ) : Prop := ∀ chunkEnd, ops.flush chunkEnd sink = sink

/-- Flushing closes the batch, and messages of the general path leave it closed. -/
structure Lawful : Prop where
  flush : ∀ chunkEnd sink, ops.Settled (ops.flush chunkEnd sink)
  single : ∀ {sink} event, ops.Settled sink → ops.Settled (ops.single sink event)

/-- The message an item completes. -/
def message? (item : Item) : Option DataEvent := item.event.bind Event.data?

/-- The sink calls for a list of items. -/
def deliver (sink : σ) : List Item → σ
  | [] => sink
  | item :: items =>
      match message? item with
      | none => deliver (ops.flush false sink) items
      | some data =>
          if item.direct then deliver (ops.push sink data) items
          else deliver (ops.single (ops.flush false sink) data) items

/-- Whether a run of direct frames that ends before `rest` is the end of the chunk. -/
def tailFlag (rest : Bytes) : Bool :=
  match parseServerDataHeaderFast rest with
  | .ok .fallback => false
  | _ => true

/-- The sink after a reading. -/
def delivered (sink : σ) (d : Decoded) : σ := ops.flush (tailFlag d.rest) (ops.deliver sink d.items)

variable {ops}

theorem deliver_append (sink : σ) (first second : List Item) :
    ops.deliver sink (first ++ second) = ops.deliver (ops.deliver sink first) second := by
  induction first generalizing sink with
  | nil => rfl
  | cons item items ih =>
      simp only [List.cons_append, deliver]
      split
      next => exact ih _
      next => split <;> exact ih _

/-- Frames without a message leave a settled sink alone. -/
theorem deliver_quiet {sink : σ} (settled : ops.Settled sink) {items : List Item}
    (quiet : ∀ item ∈ items, message? item = none) : ops.deliver sink items = sink := by
  induction items with
  | nil => rfl
  | cons item items ih =>
      rw [deliver, quiet item (by simp), settled]
      exact ih fun other member => quiet other (by simp [member])

theorem deliver_silent {sink : σ} (settled : ops.Settled sink) {items : List Item}
    (silent : ∀ item ∈ items, item.event = none) : ops.deliver sink items = sink :=
  deliver_quiet settled fun item member => by simp [message?, silent item member]

end SinkOps

/-! ## Direct frames -/

section Direct

variable [AcceptDigest] {config : WsConfig} {clientKey : Text} {c : Core} {r : Bytes}

/-- The decoder's side of `queueFastDataFrameError`. -/
def Core.refuse (c : Core) : FastDataFrameError → Core × WsError
  | .frame e => (c.queueClose CloseCode.protocolError.asU16 "frame parse error", .frame e)
  | .frameTooLarge =>
      (c.queueClose CloseCode.messageTooBig.asU16 "frame too large", .messageTooLarge)
  | .messageTooLarge =>
      (c.queueClose CloseCode.messageTooBig.asU16 "message exceeds max_message_size",
        .messageTooLarge)
  | .utf8Invalid => (c.queueClose CloseCode.invalidPayload.asU16 "invalid utf-8", .utf8Invalid)

omit [AcceptDigest] in
theorem SameWire.refuse {w : WsClient} (same : SameWire w c) (error : FastDataFrameError) :
    SameWire (w.queueFastDataFrameError error).1 (c.refuse error).1 ∧
      (w.queueFastDataFrameError error).2 = (c.refuse error).2 := by
  cases error <;> exact ⟨same.queueClose _ _, rfl⟩

/-- The step of the decoder where the direct path looks at a frame. -/
theorem Core.step_direct (c : Core) (config : WsConfig) (clientKey : Text) (r : Bytes)
    (isOpen : c.state = .isOpen) (noMessage : c.message = none) :
    match parseCompleteServerDataFrame config r with
    | .ok (.parsed data size) =>
        c.step config clientKey fastFault .idle r = .frame c size (some data.toEvent)
    | .ok .needMore => c.step config clientKey fastFault .idle r = .needMore
    | .ok .fallback => fastFault r = borrowedFault r
    | .error e =>
        c.step config clientKey fastFault .idle r = .fail (c.refuse e).1 (c.refuse e).2 := by
  have live : c.Live := .inl isOpen
  have active : activeFault fastFault .idle c = fastFault := by
    simp [activeFault, isOpen, noMessage]
  have stepped : c.step config clientKey fastFault .idle r = _ := Core.step_live live
  rw [active] at stepped
  unfold parseCompleteServerDataFrame
  cases fast : parseServerDataHeaderFast r with
  | error e =>
      simp only [fastFault, fast] at stepped
      exact stepped
  | ok found =>
      cases found with
      | needMore =>
          have short := parseServerDataHeaderFast_needMore fast
          simp only [fastFault, fast, borrowedFault, short, sound] at stepped
          rw [stepped]
          simp
      | fallback => simp [fastFault, fast]
      | parsed header =>
          obtain ⟨parsed, kinds⟩ := parseServerDataHeaderFast_parsed fast
          obtain ⟨kind, opcode⟩ : ∃ kind : DataKind, header.opcode = kind.toOpCode := by
            obtain text | binary := kinds
            · exact ⟨.text, text⟩
            · exact ⟨.binary, binary⟩
          have isText : header.opcode = .text ↔ kind = .text := by
            rw [opcode]
            cases kind <;> simp [DataKind.toOpCode]
          have judged : c.step config clientKey fastFault .idle r = _ :=
            (Core.step_of_parsed fastFault_lawful live parsed rfl).trans
              (Core.body_unfragmented parsed rfl opcode noMessage)
          dsimp only at judged ⊢
          split at judged
          next large =>
            rw [if_pos large]
            exact judged
          next small =>
            rw [if_neg small]
            split at judged
            next large =>
              rw [if_pos large]
              exact judged
            next small =>
              rw [if_neg small]
              split at judged
              next short =>
                rw [if_pos short]
                exact judged
              next enough =>
                rw [if_neg enough]
                simp only [isText]
                cases kind with
                | binary => simpa [DataKind.event, DataEvent.toEvent] using judged
                | text =>
                    split at judged
                    next invalid =>
                      simp only [Bool.not_eq_true', true_and] at invalid
                      simpa [invalid, refuse] using judged
                    next valid =>
                      simp only [Bool.not_eq_true', true_and, Bool.not_eq_false] at valid
                      simpa [valid, DataKind.event, DataEvent.toEvent] using judged

end Direct

/-! ## Runs of direct frames -/

section Runs

variable [AcceptDigest] {σ : Type} {ops : SinkOps σ} {config : WsConfig} {clientKey : Text}
  {c : Core}

/-- Why a run of direct frames ended, seen by the decoder. -/
def RunEnd (config : WsConfig) (clientKey : Text) (c : Core) (rest : Bytes) :
    Except FastDataFrameError DirectDataResult → Prop
  | .ok .drained => rest = []
  | .ok .waitForMore => c.step config clientKey fastFault .idle rest = .needMore
  | .ok .fallback =>
      fastFault rest = borrowedFault rest ∧ directFrame config rest = false ∧
        SinkOps.tailFlag rest = false
  | .error e => c.step config clientKey fastFault .idle rest = .fail (c.refuse e).1 (c.refuse e).2

/-- What a run of direct frames from `bytes` does. -/
structure RunSpec (ops : SinkOps σ) (config : WsConfig) (clientKey : Text) (c : Core) (sink : σ)
    (events : Nat) (bytes : Bytes) (run : DirectRun σ) (items : List Item) : Prop where
  decoded : decode config clientKey fastFault .idle c bytes =
    (decode config clientKey fastFault .idle c run.rest).prepend items
  counted : run.events = events + (items.filterMap Item.event).length
  sink : run.sink = ops.flush (SinkOps.tailFlag run.rest) (ops.deliver sink items)
  ended : RunEnd config clientKey c run.rest run.result

omit [AcceptDigest] in
theorem tailFlag_of_fallback {rest : Bytes}
    (parsed : parseCompleteServerDataFrame config rest = .ok .fallback) :
    SinkOps.tailFlag rest = false := by
  unfold parseCompleteServerDataFrame at parsed
  split at parsed
  next => cases parsed
  next => cases parsed
  next fast => rw [SinkOps.tailFlag, fast]
  next =>
    dsimp only at parsed
    repeat' split at parsed
    all_goals cases parsed

omit [AcceptDigest] in
theorem tailFlag_of_not_fallback (config : WsConfig) {rest : Bytes}
    (parsed : parseCompleteServerDataFrame config rest ≠ .ok .fallback) :
    SinkOps.tailFlag rest = true := by
  unfold SinkOps.tailFlag
  split
  next fast => simp [parseCompleteServerDataFrame, fast] at parsed
  next => rfl

theorem directLoop_spec (ops : SinkOps σ) (config : WsConfig) (clientKey : Text)
    (isOpen : c.state = .isOpen) (noMessage : c.message = none) (sink : σ) (events : Nat)
    (bytes : Bytes) :
    ∃ items, RunSpec ops config clientKey c sink events bytes
      (directLoop ops config sink events bytes) items := by
  fun_induction directLoop ops config sink events bytes with
  | case1 sink events bytes empty =>
      obtain rfl : bytes = [] := by simpa using empty
      exact ⟨[], rfl, rfl, rfl, rfl⟩
  | case2 sink events bytes nonempty data size parsed ih =>
      obtain ⟨items, decoded, counted, delivered, ended⟩ := ih
      have stepped := c.step_direct config clientKey bytes isOpen noMessage
      rw [parsed] at stepped
      have direct : isDirect config .idle c bytes = true := by
        simp [isDirect, isOpen, noMessage, directFrame, parsed]
      refine ⟨⟨some data.toEvent, true⟩ :: items, ?_, ?_, ?_, ended⟩
      · rw [decode_frame stepped, decoded, Decoded.prepend_prepend, direct]
        rfl
      · rw [counted]
        simp only [List.filterMap_cons, List.length_cons]
        omega
      · rw [delivered]
        simp [SinkOps.deliver, SinkOps.message?]
  | case3 sink events bytes nonempty parsed =>
      have stepped := c.step_direct config clientKey bytes isOpen noMessage
      rw [parsed] at stepped
      refine ⟨[], rfl, rfl, ?_, stepped⟩
      rw [tailFlag_of_not_fallback config (by simp [parsed])]
      rfl
  | case4 sink events bytes nonempty parsed =>
      have stepped := c.step_direct config clientKey bytes isOpen noMessage
      rw [parsed] at stepped
      have flag := tailFlag_of_fallback parsed
      refine ⟨[], rfl, rfl, ?_, stepped, by simp [directFrame, parsed], flag⟩
      rw [flag]
      rfl
  | case5 sink events bytes nonempty e parsed =>
      have stepped := c.step_direct config clientKey bytes isOpen noMessage
      rw [parsed] at stepped
      refine ⟨[], rfl, rfl, ?_, stepped⟩
      rw [tailFlag_of_not_fallback config (by simp [parsed])]
      rfl

end Runs

/-! ## One turn of a drain -/

/-- Outside the direct path the early rules agree. -/
theorem activeFault_notReady {config : WsConfig} {clientKey : Text} {w : WsClient} {mode : Mode}
    {c : Core} {r : Bytes} (holds : Holds config clientKey w mode c r)
    (notReady : w.state ≠ .isOpen ∨ !w.parser.isIdle ∨ w.msgOpcode.isSome ∨ w.recvBuf.isEmpty) :
    activeFault fastFault mode c r = activeFault borrowedFault mode c r ∧
      isDirect config mode c r = false := by
  by_cases early : mode = .idle ∧ c.state = .isOpen ∧ c.message = none
  · have empty : r = [] := by
      obtain ⟨rfl, isOpen, noMessage⟩ := early
      have input := holds.input
      unfold HoldsInput at input
      cases parser : w.parser with
      | headerPartial filled => simp [parser] at input
      | payload remaining => simp [parser] at input
      | idle =>
          rw [parser] at input
          obtain ⟨-, bytes, held, -⟩ := input
          simpa [holds.wire.state, isOpen, parser, ParserState.isIdle, held, noMessage, bytes]
            using notReady
    subst empty
    have bothSilent : fastFault [] = borrowedFault [] := rfl
    refine ⟨by simp only [activeFault, if_pos early, bothSilent], ?_⟩
    simp [isDirect, directFrame, parseCompleteServerDataFrame, parseServerDataHeaderFast]
  · refine ⟨by simp only [activeFault, if_neg early], ?_⟩
    by_contra direct
    simp only [isDirect, Bool.not_eq_false, Bool.and_eq_true, decide_eq_true_eq,
      Option.isNone_iff_eq_none] at direct
    exact early ⟨direct.1.1.1, direct.1.1.2, direct.1.2⟩

section Turn

variable [AcceptDigest] {σ : Type} {ops : SinkOps σ} {config : WsConfig} {clientKey : Text}
  {w : WsClient} {mode : Mode} {c : Core} {r : Bytes} {sink : σ} {events : Nat}

/-- What a turn of a drain makes of a reading `d` that lies ahead. -/
inductive DrainSpec (ops : SinkOps σ) (config : WsConfig) (clientKey : Text) (sink : σ)
    (events : Nat) (d : Decoded) : WsClient × σ × WsClient.DrainTurn → Prop where
  | again {w' : WsClient} {sink' : σ} {mode' : Mode} {next : Core} {rest : Bytes}
      {items : List Item} {events' : Nat} (stands : Stands config clientKey w' mode' next rest)
      (decoded : d = (decode config clientKey fastFault mode' next rest).prepend items)
      (settled : ops.Settled sink')
      (sinks : ops.delivered sink d =
        ops.delivered sink' (decode config clientKey fastFault mode' next rest))
      (counted : events' = events + (items.filterMap Item.event).length) :
      DrainSpec ops config clientKey sink events d (w', sink', .again events')
  | finishes {w' : WsClient} {sink' : σ} {events' : Nat}
      (reads : Reads config clientKey w' d none) (sinks : sink' = ops.delivered sink d)
      (counted : events' = events + d.events.length) :
      DrainSpec ops config clientKey sink events d (w', sink', .done (.ok events'))
  | fails {w' : WsClient} {sink' : σ} {error : WsError}
      (reads : Reads config clientKey w' d (some error)) (sinks : sink' = ops.delivered sink d) :
      DrainSpec ops config clientKey sink events d (w', sink', .done (.error error))

/-- Items that were delivered before. -/
theorem DrainSpec.prepend {d : Decoded} {sink' : σ} {items : List Item}
    {result : WsClient × σ × WsClient.DrainTurn}
    (spec : DrainSpec ops config clientKey sink' (events + (items.filterMap Item.event).length) d
      result)
    (sinks : ops.delivered sink (d.prepend items) = ops.delivered sink' d) :
    DrainSpec ops config clientKey sink events (d.prepend items) result := by
  cases spec with
  | @again w' sink'' mode' next rest later events' stands decoded settled tail counted =>
      have before : d.prepend items =
          (decode config clientKey fastFault mode' next rest).prepend (items ++ later) := by
        rw [decoded, Decoded.prepend_prepend]
      refine .again stands before settled (sinks.trans tail) ?_
      rw [counted, List.filterMap_append, List.length_append]
      omega
  | finishes reads tail counted =>
      refine .finishes (reads.prepend items) (tail.trans sinks.symm) ?_
      rw [counted, Decoded.events_prepend, List.length_append]
      omega
  | fails reads tail => exact .fails (reads.prepend items) (tail.trans sinks.symm)

theorem drainEvent_spec (lawful : ops.Lawful) (stands : Stands config clientKey w mode c r)
    (settled : ops.Settled sink)
    (agree : activeFault fastFault mode c r = activeFault borrowedFault mode c r)
    (notDirect : isDirect config mode c r = false) :
    DrainSpec ops config clientKey sink events (decode config clientKey fastFault mode c r)
      (w.drainEvent ops sink events) := by
  have spec := pollEvent_spec fastFault_lawful stands agree
  unfold WsClient.drainEvent
  generalize w.pollEvent = polled at spec
  cases spec with
  | waits decoded silent path holds =>
      rw [decoded]
      refine .finishes holds.reads ?_ ?_
      · rw [SinkOps.delivered, SinkOps.deliver_silent settled silent, settled]
      · simp [Decoded.events, filterMap_event_nil silent]
  | @fails w' quiet next rest error decoded silent path wire =>
      rw [decoded]
      refine .fails ⟨rfl, wire, by simp⟩ ?_
      rw [SinkOps.delivered, SinkOps.deliver_silent settled silent, settled]
  | @event w' quiet last event next rest decoded silent emits path stands =>
      have general : last.direct = false := by
        by_contra direct
        have := path last (by simp) (by simpa using direct)
        simp [notDirect] at this
      rw [decoded]
      dsimp only
      refine .again stands rfl ?_ ?_ ?_
      · split
        next data found => exact lawful.single data settled
        next => exact settled
      · rw [SinkOps.delivered, Decoded.prepend, SinkOps.deliver_append, SinkOps.deliver_append,
          SinkOps.deliver_silent settled silent]
        simp only [SinkOps.delivered, SinkOps.deliver, SinkOps.message?, emits, Option.bind_some,
          general, Bool.false_eq_true, if_false, settled false]
        split <;> simp_all
      · simp [filterMap_event_nil silent, emits]

/-- A flush before the general path changes nothing. -/
theorem delivered_flush (lawful : ops.Lawful) (notDirect : isDirect config mode c r = false)
    (flag : SinkOps.tailFlag r = false) (sink : σ) :
    ops.delivered sink (decode config clientKey fastFault mode c r) =
      ops.delivered (ops.flush false sink) (decode config clientKey fastFault mode c r) := by
  have settled := lawful.flush false sink
  unfold SinkOps.delivered
  obtain ⟨none, rest⟩ | ⟨event, items, some⟩ :=
    decode_head config clientKey fastFault mode c r
  · rw [none, rest, flag]
    exact (settled false).symm
  · rw [some, notDirect]
    simp only [SinkOps.deliver, Bool.false_eq_true, if_false, settled false]

theorem drainTurn_spec (events : Nat) (lawful : ops.Lawful) (stands : Stands config clientKey w mode c r)
    (settled : ops.Settled sink) :
    DrainSpec ops config clientKey sink events (decode config clientKey fastFault mode c r)
      (w.drainTurn ops sink events) := by
  have holds := stands.holds
  rw [WsClient.drainTurn]
  generalize w.clearAfterEmit = w at holds
  obtain rfl := holds.config
  by_cases notReady : w.state ≠ .isOpen ∨ !w.parser.isIdle ∨ w.msgOpcode.isSome ∨ w.recvBuf.isEmpty
  · rw [WsClient.tryDrain, if_pos notReady]
    obtain ⟨agree, notDirect⟩ := activeFault_notReady holds notReady
    exact drainEvent_spec lawful holds.stands settled agree notDirect
  · obtain ⟨rfl, isOpen, noMessage, rfl, parser⟩ := holds.ready notReady
    obtain ⟨items, decoded, counted, sinks, ended⟩ :=
      directLoop_spec ops w.config clientKey isOpen noMessage sink 0 w.recvBuf
    rw [WsClient.tryDrain, if_neg notReady]
    generalize directLoop ops w.config sink 0 w.recvBuf = run at decoded counted sinks ended
    obtain ⟨runSink, runEvents, rest, result⟩ := run
    dsimp only at decoded counted sinks ended ⊢
    rw [Nat.zero_add] at counted
    have skipped : Holds w.config clientKey { w with recvBuf := rest } .idle c rest := by
      have := holds.skip rest
      rwa [← holds.unborrowed, ← holds.cleared] at this
    have settledRun : ops.Settled runSink := by
      rw [sinks]
      exact lawful.flush _ _
    have before (d : Decoded) (ahead : decode w.config clientKey fastFault .idle c rest = d)
        (same : d.items = [] ∧ d.rest = rest) :
        runSink = ops.delivered sink (d.prepend items) := by
      rw [sinks, SinkOps.delivered, Decoded.prepend, same.1, same.2, List.append_nil]
    rw [decoded]
    cases result with
    | error e =>
        have failed := decode_fail ended
        rw [failed]
        obtain ⟨wire, error⟩ := skipped.wire.refuse e
        dsimp only
        rw [error]
        exact .fails ⟨rfl, wire, fun found => by cases found⟩ (before _ failed ⟨rfl, rfl⟩)
    | ok result =>
        cases result with
        | drained =>
            obtain rfl : rest = [] := ended
            have waiting : decode w.config clientKey fastFault .idle c [] = ⟨[], c, [], none⟩ :=
              decode_needMore (c.step_direct w.config clientKey [] isOpen noMessage)
            refine .again skipped.stands rfl settledRun ?_ (by rw [counted])
            rw [waiting, ← before _ waiting ⟨rfl, rfl⟩]
            exact (settledRun _).symm
        | waitForMore =>
            have waiting := decode_needMore ended
            rw [waiting]
            refine .finishes (skipped.reads.prepend items) (before _ waiting ⟨rfl, rfl⟩) ?_
            rw [counted, Decoded.events_prepend]
            simp [Decoded.events]
        | fallback =>
            obtain ⟨sameFault, notDirect, flag⟩ := ended
            have agree : activeFault fastFault .idle c rest = activeFault borrowedFault .idle c rest := by
              simp only [activeFault, isOpen, noMessage, and_self, if_true, sameFault]
            have general : isDirect w.config .idle c rest = false := by simp [isDirect, notDirect]
            rw [counted]
            refine DrainSpec.prepend (drainEvent_spec lawful skipped.stands settledRun agree general) ?_
            rw [sinks, flag, ← delivered_flush lawful general flag]
            rw [SinkOps.delivered, Decoded.prepend, SinkOps.deliver_append]
            rfl

end Turn

/-! ## The drains -/

section Drains

variable [AcceptDigest] {σ : Type} {ops : SinkOps σ} {config : WsConfig} {clientKey : Text}
  {w : WsClient} {mode : Mode} {c : Core} {r : Bytes} {sink : σ} {events : Nat}

/-- What a drain answers after a reading. -/
def Decoded.answer (d : Decoded) (events : Nat) : Except WsError Nat :=
  match d.error with
  | none => .ok (events + d.events.length)
  | some error => .error error

/-- A drain that has read `d`. -/
structure Drained (ops : SinkOps σ) (config : WsConfig) (clientKey : Text) (sink : σ)
    (events : Nat) (d : Decoded) (out : WsClient × σ × Except WsError Nat) : Prop where
  reads : Reads config clientKey out.1 d d.error
  sink : out.2.1 = ops.delivered sink d
  result : out.2.2 = d.answer events

omit [AcceptDigest] in
theorem Drained.prepend {d : Decoded} {sink' : σ} {items : List Item} {events' : Nat}
    {out : WsClient × σ × Except WsError Nat}
    (drained : Drained ops config clientKey sink' events' d out)
    (counted : events' = events + (items.filterMap Item.event).length)
    (sinks : ops.delivered sink (d.prepend items) = ops.delivered sink' d) :
    Drained ops config clientKey sink events (d.prepend items) out := by
  refine ⟨drained.reads.prepend items, drained.sink.trans sinks.symm, ?_⟩
  rw [drained.result]
  simp only [Decoded.answer, Decoded.events_prepend, List.length_append, counted, Nat.add_assoc]
  rfl

theorem drain_spec (lawful : ops.Lawful) (stands : Stands config clientKey w mode c r)
    (settled : ops.Settled sink) :
    Drained ops config clientKey sink events (decode config clientKey fastFault mode c r)
      (w.drain ops sink events) := by
  fun_induction WsClient.drain ops w sink events generalizing mode c r with
  | case1 w sink events w₁ sink₁ more turned ih =>
      have spec := drainTurn_spec events lawful stands settled
      rw [turned] at spec
      cases spec with
      | again stands decoded settled sinks counted =>
          rw [decoded] at sinks ⊢
          exact Drained.prepend (ih stands settled) counted sinks
  | case2 w sink events w₁ sink₁ result turned =>
      have spec := drainTurn_spec events lawful stands settled
      rw [turned] at spec
      cases spec with
      | finishes reads sinks counted =>
          have error := reads.error
          refine ⟨error ▸ reads, sinks, ?_⟩
          rw [Decoded.answer, ← error, counted]
      | fails reads sinks =>
          have error := reads.error
          refine ⟨error ▸ reads, sinks, ?_⟩
          rw [Decoded.answer, ← error]

/-- The direct part of `drainFromIngress`. -/
theorem drainFromIngress_direct (lawful : ops.Lawful) (holds : Holds config clientKey w mode c r)
    (direct : w.canDrainIngressDirectly = true) (bytes : Bytes) (nonempty : bytes.isEmpty = false) :
    Drained ops config clientKey sink 0 (decode config clientKey fastFault mode c (r ++ bytes))
      (w.drainFromIngress ops bytes sink) := by
  have cleared : w.clearAfterEmit = w := WsClient.clearAfterEmit_idle holds.cleared
  obtain rfl := holds.config
  simp only [WsClient.canDrainIngressDirectly, Bool.and_eq_true, decide_eq_true_eq,
    Option.isNone_iff_eq_none, List.isEmpty_iff] at direct
  obtain ⟨⟨⟨⟨state, idle⟩, noOpcode⟩, empty⟩, -⟩ := direct
  obtain ⟨parser, rfl, rfl, message⟩ :
      w.parser = .idle ∧ mode = .idle ∧ r = w.recvBuf ∧ HoldsMessage w c.message := by
    have input := holds.input
    unfold HoldsInput at input
    cases parser : w.parser with
    | idle => simpa [parser] using input
    | headerPartial filled => simp [parser, ParserState.isIdle] at idle
    | payload remaining => simp [parser, ParserState.isIdle] at idle
  have isOpen : c.state = .isOpen := holds.wire.state ▸ state
  have noMessage : c.message = none := by
    cases found : c.message with
    | none => rfl
    | some m => simp [message.1, found] at noOpcode
  rw [empty, List.nil_append]
  obtain ⟨items, decoded, counted, sinks, ended⟩ :=
    directLoop_spec ops w.config clientKey isOpen noMessage sink 0 bytes
  have canDrain : w.canDrainIngressDirectly = true := by
    simp [WsClient.canDrainIngressDirectly, state, parser, ParserState.isIdle, noOpcode, empty,
      holds.unborrowed]
  simp only [WsClient.drainFromIngress, cleared, nonempty, Bool.false_eq_true, if_false, canDrain,
    if_true, WsClient.tryDrainIngress]
  generalize directLoop ops w.config sink 0 bytes = run at decoded counted sinks ended
  obtain ⟨runSink, runEvents, rest, result⟩ := run
  dsimp only at decoded counted sinks ended ⊢
  have fed : Holds w.config clientKey (w.feedRecv rest) .idle c rest := by
    have := holds.feedRecv rest
    rwa [empty, List.nil_append] at this
  have before (d : Decoded) (same : d.items = [] ∧ d.rest = rest) :
      runSink = ops.delivered sink (d.prepend items) := by
    rw [sinks, SinkOps.delivered, Decoded.prepend, same.1, same.2, List.append_nil]
  have answer (d : Decoded) (same : d.items = []) (clean : d.error = none) :
      Except.ok runEvents = (d.prepend items).answer 0 := by
    have error : (d.prepend items).error = none := clean
    rw [Decoded.answer, error, counted, Decoded.events_prepend, Decoded.events, same]
    simp
  rw [decoded]
  cases result with
  | error e =>
      have failed := decode_fail ended
      obtain ⟨wire, error⟩ := holds.wire.refuse e
      rw [failed]
      refine ⟨⟨rfl, wire, fun found => by cases found⟩, before _ ⟨rfl, rfl⟩, ?_⟩
      simp only [Decoded.answer, Decoded.prepend, error]
  | ok result =>
      cases result with
      | drained =>
          obtain rfl : rest = [] := ended
          have waiting : decode w.config clientKey fastFault .idle c [] = ⟨[], c, [], none⟩ :=
            decode_needMore (c.step_direct w.config clientKey [] isOpen noMessage)
          have kept : Holds w.config clientKey w .idle c [] := empty ▸ holds
          rw [waiting]
          exact ⟨kept.reads.prepend items, before _ ⟨rfl, rfl⟩, answer _ rfl rfl⟩
      | waitForMore =>
          rw [decode_needMore ended]
          exact ⟨fed.reads.prepend items, before _ ⟨rfl, rfl⟩, answer _ rfl rfl⟩
      | fallback =>
          obtain ⟨sameFault, notDirect, flag⟩ := ended
          have general : isDirect w.config .idle c rest = false := by simp [isDirect, notDirect]
          have settledRun : ops.Settled runSink := by
            rw [sinks]
            exact lawful.flush _ _
          refine Drained.prepend (drain_spec lawful fed.stands settledRun) counted ?_
          rw [sinks, flag, ← delivered_flush lawful general flag]
          rw [SinkOps.delivered, Decoded.prepend, SinkOps.deliver_append]
          rfl

/-- Every drain over an ingress chunk reads what the decoder reads and hands it to its sink. -/
theorem drainFromIngress_spec (lawful : ops.Lawful) (stands : Stands config clientKey w mode c r)
    (settled : ops.Settled sink) (bytes : Bytes) :
    Drained ops config clientKey sink 0 (decode config clientKey fastFault mode c (r ++ bytes))
      (w.drainFromIngress ops bytes sink) := by
  have holds := stands.holds
  have cleared : w.clearAfterEmit.clearAfterEmit = w.clearAfterEmit :=
    WsClient.clearAfterEmit_idle holds.cleared
  have restart : w.drainFromIngress ops bytes sink =
      w.clearAfterEmit.drainFromIngress ops bytes sink := by
    simp only [WsClient.drainFromIngress, cleared]
  rw [restart]
  cases nonempty : bytes.isEmpty with
  | true =>
      obtain rfl : bytes = [] := by simpa using nonempty
      rw [List.append_nil]
      simp only [WsClient.drainFromIngress, cleared, List.isEmpty_nil, if_true]
      exact drain_spec lawful holds.stands settled
  | false =>
      cases direct : w.clearAfterEmit.canDrainIngressDirectly with
      | true => exact drainFromIngress_direct lawful holds direct bytes nonempty
      | false =>
          simp only [WsClient.drainFromIngress, cleared, nonempty, direct, Bool.false_eq_true,
            if_false]
          exact drain_spec lawful (holds.feedRecv bytes).stands settled

end Drains

end Talaris.Ws
