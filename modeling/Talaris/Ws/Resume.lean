import Talaris.Basis.Account
import Talaris.Ws.Chunking
import Talaris.Ws.Variants

/-!
# Where a client goes on

Between two calls a client has read some events of its stream and waits with the rest of the
bytes.  What it sends meanwhile does not matter for what it reads (`wireEvents_bare`), so its
accounts with the stream stay in order over any mixture of calls, up to the first error.
-/

namespace Talaris.Ws

open Talaris.Basis
open Talaris.Http

/-! ## What reading depends on -/

/-- A closing client reads on as an open one. -/
def ConnState.bare : ConnState → ConnState
  | .closing => .isOpen
  | .connecting => .connecting
  | .isOpen => .isOpen
  | .closed => .closed

theorem ConnState.bare_connecting {state : ConnState} :
    state.bare = .connecting ↔ state = .connecting := by
  cases state <;> simp [bare]

/-- The part of a client that matters for what it reads. -/
def Core.bare (c : Core) : Core := ⟨c.state.bare, c.message, []⟩

/-- A verdict without what is sent. -/
def Verdict.bare : Verdict → Verdict
  | .needMore => .needMore
  | .violation => .violation
  | .frame next size event => .frame next.bare size event
  | .fail _ error => .fail ⟨.closed, none, []⟩ error

@[simp] theorem Core.bare_message (c : Core) : c.bare.message = c.message := rfl

@[simp] theorem Core.bare_write (c : Core) (opcode : OpCode) (payload : Bytes) :
    (c.write opcode payload).bare = c.bare := rfl

@[simp] theorem Core.bare_bare (c : Core) : c.bare.bare = c.bare := by
  obtain ⟨state, message, outbound⟩ := c
  cases state <;> rfl

@[simp] theorem Core.queueClose_message (c : Core) (code : Nat) (reason : String) :
    (c.queueClose code reason).message = c.message := by
  unfold queueClose
  split
  next => rfl
  next =>
    dsimp only
    split <;> rfl

section Frames

variable (config : WsConfig)

theorem Core.control_bare (c : Core) (opcode : OpCode) (payload : Bytes) (size : Nat) :
    (c.bare.control config opcode payload size).bare =
      (c.control config opcode payload size).bare := by
  have closed (one two : Core) (same : one.message = two.message) :
      ({ one with state := .closed } : Core).bare = ({ two with state := .closed } : Core).bare := by
    simp only [bare, same]
  unfold control
  cases opcode with
  | ping =>
      dsimp only [Verdict.bare]
      split <;> simp
  | close =>
      dsimp only
      split
      next => rfl
      next =>
        simp only [Verdict.bare, Verdict.frame.injEq, and_true]
        apply closed
        split <;> split <;> simp
      next =>
        simp only [Verdict.bare, Verdict.frame.injEq, and_true]
        apply closed
        split <;> split <;> simp
  | pong | continuation | text | binary => simp [Verdict.bare]

theorem Core.data_bare (c : Core) (kind : DataKind) (acc : Bytes) (h : FrameHeader)
    (headerLen : Nat) (r : Bytes) :
    (c.bare.data config kind acc h headerLen r).bare =
      (c.data config kind acc h headerLen r).bare := by
  have held (message : Option (DataKind × Bytes)) :
      ({ c.bare with message } : Core).bare = ({ c with message } : Core).bare := by
    obtain ⟨state, -, -⟩ := c
    cases state <;> rfl
  unfold data
  dsimp only
  repeat' split
  all_goals first | rfl | simp only [Verdict.bare, held]

theorem Core.body_bare (c : Core) (h : FrameHeader) (headerLen : Nat) (r : Bytes) :
    (c.bare.body config h headerLen r).bare = (c.body config h headerLen r).bare := by
  unfold body
  split
  next => rfl
  next =>
    split
    next =>
      split
      next => rfl
      next => exact c.control_bare config _ _ _
    next =>
      rw [bare_message]
      cases h.opcode.dataKind? <;> cases c.message
      · rfl
      · exact c.data_bare config _ _ h headerLen r
      · exact c.data_bare config _ _ h headerLen r
      · rfl

variable [AcceptDigest] (clientKey : Text)

theorem Core.judge_bare (c : Core) (r : Bytes) :
    (c.bare.judge config clientKey r).bare = (c.judge config clientKey r).bare := by
  have handshake : (c.bare.handshake config clientKey r).bare =
      (c.handshake config clientKey r).bare := by
    unfold Core.handshake
    cases parseResponse r with
    | error e => rfl
    | ok parsed =>
        cases parsed with
        | none => rfl
        | some found =>
            dsimp only
            split <;> rfl
  have live : (if BadHeader r then Verdict.violation else c.bare.sound config r).bare =
      (if BadHeader r then Verdict.violation else c.sound config r).bare := by
    split
    next => rfl
    next =>
      unfold Core.sound
      split
      next => exact c.body_bare config _ _ r
      next => rfl
  unfold judge
  cases state : c.state <;> simp only [bare, state, ConnState.bare] at handshake live ⊢
  · exact handshake
  · exact live
  · exact live

/-- Two clients with the same bare part. -/
theorem Core.judge_alike {c c' : Core} (alike : c'.bare = c.bare) (r : Bytes) :
    (c'.judge config clientKey r).bare = (c.judge config clientKey r).bare := by
  rw [← c'.judge_bare, ← c.judge_bare, alike]

/-- The events of a stream. -/
def wireEvents (c : Core) (r : Bytes) : List Event := (scan config clientKey c r).events

theorem wireEvents_alike {c c' : Core} (alike : c'.bare = c.bare) (r : Bytes) :
    wireEvents config clientKey c' r = wireEvents config clientKey c r := by
  unfold wireEvents
  fun_induction scan config clientKey c r generalizing c' with
  | case1 c r judged =>
      have same := Core.judge_alike config clientKey alike r
      rw [judged] at same
      cases judged' : c'.judge config clientKey r with
      | needMore => rw [scan_needMore judged']
      | _ => simp [judged', Verdict.bare] at same
  | case2 c r judged =>
      have same := Core.judge_alike config clientKey alike r
      rw [judged] at same
      cases judged' : c'.judge config clientKey r with
      | violation => rw [scan_violation judged']
      | _ => simp [judged', Verdict.bare] at same
  | case3 c r next error judged =>
      have same := Core.judge_alike config clientKey alike r
      rw [judged] at same
      cases judged' : c'.judge config clientKey r with
      | fail next' error' => rw [scan_fail judged']
      | _ => simp [judged', Verdict.bare] at same
  | case4 c r next size event judged ih =>
      have same := Core.judge_alike config clientKey alike r
      rw [judged] at same
      cases judged' : c'.judge config clientKey r with
      | frame next' size' event' =>
          simp only [judged', Verdict.bare, Verdict.frame.injEq] at same
          obtain ⟨alike', rfl, rfl⟩ := same
          rw [scan_frame judged']
          simp only [Scan.prepend, ih alike']
      | _ => simp [judged', Verdict.bare] at same

end Frames

/-! ## Frames one after the other -/

section Reading

variable [AcceptDigest] (config : WsConfig) (clientKey : Text)

/-- Reading on frame by frame, with the events of the frames. -/
inductive ReadsOn : Core → Bytes → List Event → Core → Bytes → Prop where
  | nil (c : Core) (r : Bytes) : ReadsOn c r [] c r
  | cons {c next last : Core} {r rest : Bytes} {size : Nat} {event : Option Event}
      {events : List Event} :
      c.judge config clientKey r = .frame next size event →
      ReadsOn next (r.drop size) events last rest →
      ReadsOn c r (event.toList ++ events) last rest

/-- Nothing that follows gives an event. -/
def Halted (c : Core) (r : Bytes) : Prop := ∀ more, wireEvents config clientKey c (r ++ more) = []

/-- A client before the upgrade, and one that reads no more. -/
def Core.fresh : Core := ⟨.connecting, none, []⟩

def Core.over : Core := ⟨.closed, none, []⟩

/-- The bytes begin with a response that completes the upgrade. -/
def Upgraded (bytes : Bytes) : Prop :=
  ∃ response n, parseResponse bytes = .ok (some (response, n)) ∧
    verifyUpgradeResponse response clientKey config.subprotocols = .ok ()

variable {config clientKey} {c next last : Core} {r rest : Bytes} {size : Nat}
  {event : Option Event} {events : List Event} {fault : Fault} {mode : Mode}

theorem Upgraded.append {bytes : Bytes} (upgraded : Upgraded config clientKey bytes)
    (more : Bytes) : Upgraded config clientKey (bytes ++ more) := by
  obtain ⟨response, n, parsed, verified⟩ := upgraded
  refine ⟨response, n, ?_, verified⟩
  rw [parseResponse_append (by simp [parsed]), parsed]

theorem wireEvents_closed (closed : c.state = .closed) (r : Bytes) :
    wireEvents config clientKey c r = [] := by
  have waits : c.judge config clientKey r = .needMore := by simp [Core.judge, closed]
  rw [wireEvents, scan_needMore waits]

theorem wireEvents_over (r : Bytes) : wireEvents config clientKey .over r = [] :=
  wireEvents_closed rfl r

theorem wireEvents_frame (judged : c.judge config clientKey r = .frame next size event) :
    wireEvents config clientKey c r =
      event.toList ++ wireEvents config clientKey next (r.drop size) := by
  rw [wireEvents, scan_frame judged]
  rfl

theorem halted_of_fail {error : WsError} (judged : c.judge config clientKey r = .fail next error) :
    Halted config clientKey c r := by
  intro more
  have settled : c.judge config clientKey r ≠ .needMore := by simp [judged]
  rw [wireEvents, scan_fail ((Core.judge_append config clientKey settled more).trans judged)]

theorem halted_of_violation (judged : c.judge config clientKey r = .violation) :
    Halted config clientKey c r := by
  intro more
  have settled : c.judge config clientKey r ≠ .needMore := by simp [judged]
  rw [wireEvents, scan_violation ((Core.judge_append config clientKey settled more).trans judged)]

theorem Halted.nothing (halted : Halted config clientKey c r) :
    wireEvents config clientKey c r = [] := by
  have now := halted []
  rwa [List.append_nil] at now

/-- A path reads the prescribed frame. -/
theorem Core.judge_of_step (lawful : fault.Lawful)
    (stepped : c.step config clientKey fault mode r = .frame next size event) :
    c.judge config clientKey r = .frame next size event := by
  obtain ⟨-, same⟩ | ⟨-, ⟨waits, -⟩ | ⟨e, reason, fails⟩⟩ :=
    c.step_of_judge config clientKey lawful mode r
  · exact same.symm.trans stepped
  · simp [waits] at stepped
  · simp [fails] at stepped

/-- Where a path fails, nothing follows. -/
theorem halted_of_step (lawful : fault.Lawful) {error : WsError}
    (stepped : c.step config clientKey fault mode r = .fail next error) :
    Halted config clientKey c r := by
  obtain ⟨-, same⟩ | ⟨violated, -⟩ := c.step_of_judge config clientKey lawful mode r
  · exact halted_of_fail (same.symm.trans stepped)
  · exact halted_of_violation violated

/-- Where a path waits, nothing is complete. -/
theorem nothing_of_step (lawful : fault.Lawful)
    (stepped : c.step config clientKey fault mode r = .needMore) :
    wireEvents config clientKey c r = [] := by
  obtain ⟨-, same⟩ | ⟨violated, -⟩ := c.step_of_judge config clientKey lawful mode r
  · rw [wireEvents, scan_needMore (same.symm.trans stepped)]
  · exact (halted_of_violation violated).nothing

/-- A frame never leads back, and only a closing client stays closing. -/
theorem Core.judge_frame_leads (judged : c.judge config clientKey r = .frame next size event) :
    next.state ≠ .connecting ∧ (next.state = .closing → c.state = .closing) ∧
      (c.state = .connecting → event = some .handshakeComplete ∧ Upgraded config clientKey r) := by
  have control (live : c.state ≠ .connecting) {opcode : OpCode} {payload : Bytes} {total : Nat}
      (framed : c.control config opcode payload total = .frame next size event) :
      next.state ≠ .connecting ∧ (next.state = .closing → c.state = .closing) := by
    unfold Core.control at framed
    cases opcode with
    | ping =>
        simp only [Verdict.frame.injEq] at framed
        obtain ⟨rfl, -⟩ := framed
        split <;> exact ⟨live, fun same => same⟩
    | close =>
        dsimp only at framed
        split at framed
        next => cases framed
        next =>
          simp only [Verdict.frame.injEq] at framed
          obtain ⟨rfl, -⟩ := framed
          exact ⟨by simp, by simp⟩
        next =>
          simp only [Verdict.frame.injEq] at framed
          obtain ⟨rfl, -⟩ := framed
          exact ⟨by simp, by simp⟩
    | pong | continuation | text | binary =>
        simp only [Verdict.frame.injEq] at framed
        obtain ⟨rfl, -⟩ := framed
        exact ⟨live, fun same => same⟩
  have data (live : c.state ≠ .connecting) {kind : DataKind} {acc : Bytes} {h : FrameHeader}
      {headerLen : Nat} (framed : c.data config kind acc h headerLen r = .frame next size event) :
      next.state ≠ .connecting ∧ (next.state = .closing → c.state = .closing) := by
    unfold Core.data at framed
    dsimp only at framed
    repeat' split at framed
    all_goals first
      | (simp only [Verdict.frame.injEq] at framed
         obtain ⟨rfl, -⟩ := framed
         exact ⟨live, fun same => same⟩)
      | cases framed
  have sound (live : c.state ≠ .connecting) (framed : c.sound config r = .frame next size event) :
      next.state ≠ .connecting ∧ (next.state = .closing → c.state = .closing) := by
    unfold Core.sound Core.body at framed
    repeat' split at framed
    all_goals first
      | exact control live framed
      | exact data live framed
      | cases framed
  unfold Core.judge at judged
  cases state : c.state with
  | closed => simp [state] at judged
  | connecting =>
      simp only [state] at judged
      unfold Core.handshake at judged
      split at judged
      next => cases judged
      next => cases judged
      next response bodyStart parsed =>
        split at judged
        next => cases judged
        next verified =>
          simp only [Verdict.frame.injEq] at judged
          obtain ⟨rfl, -, rfl⟩ := judged
          exact ⟨by simp, by simp, fun _ => ⟨rfl, response, bodyStart, parsed, verified⟩⟩
  | isOpen | closing =>
      simp only [state] at judged
      split at judged
      next => cases judged
      next =>
        obtain ⟨connected, closing⟩ := sound (by simp [state]) judged
        exact ⟨connected, fun same => state ▸ closing same, by simp⟩

namespace ReadsOn

theorem single (judged : c.judge config clientKey r = .frame next size event) :
    ReadsOn config clientKey c r event.toList next (r.drop size) := by
  have read := ReadsOn.cons judged (.nil next (r.drop size))
  rwa [List.append_nil] at read

/-- The accounts of reading on. -/
theorem accounts (read : ReadsOn config clientKey c r events last rest) :
    Accounts (wireEvents config clientKey) c r events last rest := by
  induction read with
  | nil c r => exact .refl c r
  | @cons c next last r rest size event events judged _ ih =>
      intro more
      have settled : c.judge config clientKey r ≠ .needMore := by simp [judged]
      obtain ⟨-, inside⟩ := Core.judge_frame_size config clientKey judged
      rw [wireEvents_frame ((Core.judge_append config clientKey settled more).trans judged),
        List.drop_append_of_le_length inside, ih more, List.append_assoc]

/-- Reading on to where nothing follows. -/
theorem halts (read : ReadsOn config clientKey c r events last rest)
    (halted : Halted config clientKey last rest) :
    Accounts (wireEvents config clientKey) c r events .over [] := by
  intro more
  rw [read.accounts more, halted more, wireEvents_over]

theorem state (read : ReadsOn config clientKey c r events last rest) :
    (last.state = .connecting → events = [] ∧ last = c ∧ rest = r) ∧
      (last.state = .closing → c.state = .closing) := by
  induction read with
  | nil c r => exact ⟨fun _ => ⟨rfl, rfl, rfl⟩, fun same => same⟩
  | cons judged _ ih =>
      obtain ⟨connected, closing, -⟩ := Core.judge_frame_leads judged
      refine ⟨fun early => ?_, fun late => closing (ih.2 late)⟩
      obtain ⟨-, rfl, -⟩ := ih.1 early
      exact absurd early connected

/-- A connecting client reads the upgrade first. -/
theorem connecting (read : ReadsOn config clientKey c r events last rest)
    (early : c.state = .connecting) :
    (events = [] ∧ last = c ∧ rest = r) ∨
      (∃ more, events = .handshakeComplete :: more) ∧ Upgraded config clientKey r := by
  cases read with
  | nil => exact .inl ⟨rfl, rfl, rfl⟩
  | cons judged _ =>
      obtain ⟨-, -, upgrade⟩ := Core.judge_frame_leads judged
      obtain ⟨rfl, upgraded⟩ := upgrade early
      exact .inr ⟨⟨_, rfl⟩, upgraded⟩

end ReadsOn

/-! ### Paths -/

/-- A path reads on, and waits with nothing complete or stops for good. -/
theorem decode_readsOn (lawful : fault.Lawful) (mode : Mode) (c : Core) (r : Bytes) :
    let d := decode config clientKey fault mode c r
    ∃ last rest, ReadsOn config clientKey c r d.events last rest ∧
      (d.error = none →
        last = d.core ∧ rest = d.rest ∧ wireEvents config clientKey last rest = []) ∧
      (d.error ≠ none → Halted config clientKey last rest) := by
  dsimp only
  fun_induction decode config clientKey fault mode c r with
  | case1 mode c r stepped =>
      exact ⟨c, r, .nil c r, fun _ => ⟨rfl, rfl, nothing_of_step lawful stepped⟩, by simp⟩
  | case2 mode c r stepped =>
      exact absurd stepped (Core.step_ne_violation config clientKey c fault mode r)
  | case3 mode c r next error stepped =>
      exact ⟨c, r, .nil c r, by simp, fun _ => halted_of_step lawful stepped⟩
  | case4 mode c r next size event stepped ih =>
      obtain ⟨last, rest, read, waits, stops⟩ := ih
      refine ⟨last, rest, ?_, waits, stops⟩
      have first := ReadsOn.cons (Core.judge_of_step lawful stepped) read
      cases event <;> exact first

/-- More bytes only add events behind the others. -/
theorem wireEvents_first (c : Core) (r more : Bytes) :
    wireEvents config clientKey c r <+: wireEvents config clientKey c (r ++ more) := by
  have path := @decode_readsOn _ config clientKey _ borrowedFault_lawful .idle c r
  obtain ⟨last, rest, read, waits, stops⟩ := path
  have nothing : wireEvents config clientKey last rest = [] := by
    cases error : (decode config clientKey borrowedFault .idle c r).error with
    | none => exact (waits error).2.2
    | some e => exact (stops (by simp [error])).nothing
  rw [← read.accounts.given_all nothing]
  exact read.accounts.prefix_append more

end Reading

/-! ## Clients -/

section Clients

variable [AcceptDigest] {config : WsConfig} {clientKey : Text} {w : WsClient} {mode : Mode}
  {c : Core} {r : Bytes}

/-- What one call of `pollEvent` reads. -/
inductive Polls (config : WsConfig) (clientKey : Text) (c : Core) (r : Bytes) :
    WsClient × Option (Except WsError Event) → Prop where
  | waits {w' : WsClient} {mode' : Mode} {next : Core} {rest : Bytes} :
      ReadsOn config clientKey c r [] next rest → Stands config clientKey w' mode' next rest →
      wireEvents config clientKey next rest = [] → Polls config clientKey c r (w', none)
  | event {w' : WsClient} {event : Event} {next : Core} {rest : Bytes} :
      ReadsOn config clientKey c r [event] next rest →
      Stands config clientKey w' .idle next rest →
      Polls config clientKey c r (w', some (.ok event))
  | fails {w' : WsClient} {next : Core} {rest : Bytes} {error : WsError} :
      ReadsOn config clientKey c r [] next rest → Halted config clientKey next rest →
      Polls config clientKey c r (w', some (.error error))

theorem Polls.cons {next : Core} {size : Nat} {result : WsClient × Option (Except WsError Event)}
    (judged : c.judge config clientKey r = .frame next size none)
    (polls : Polls config clientKey next (r.drop size) result) :
    Polls config clientKey c r result := by
  cases polls with
  | waits read stands nothing => exact .waits (.cons judged read) stands nothing
  | event read stands => exact .event (.cons judged read) stands
  | fails read halted => exact .fails (.cons judged read) halted

theorem pollLoop_polls (holds : Holds config clientKey w mode c r) :
    Polls config clientKey c r w.pollLoop := by
  fun_induction WsClient.pollLoop w generalizing mode c r with
  | case1 w w₁ turned ih =>
      have spec := pollTurn_spec borrowedFault_lawful holds rfl
      rw [turned] at spec
      cases spec with
      | stutter holds => exact ih holds
      | quiet stepped holds =>
          exact (ih holds).cons (Core.judge_of_step borrowedFault_lawful stepped)
  | case2 w w₁ result turned =>
      have spec := pollTurn_spec borrowedFault_lawful holds rfl
      rw [turned] at spec
      cases spec with
      | waits stepped holds =>
          exact .waits (.nil c r) holds.stands (nothing_of_step borrowedFault_lawful stepped)
      | event stepped stands =>
          exact .event (.single (Core.judge_of_step borrowedFault_lawful stepped)) stands
      | fails stepped wire => exact .fails (.nil c r) (halted_of_step borrowedFault_lawful stepped)

theorem pollEvent_polls (stands : Stands config clientKey w mode c r) :
    Polls config clientKey c r w.pollEvent := pollLoop_polls stands.holds

/-- A client that has read these events of its stream, and waits in `c` with the bytes `r`. -/
structure HasRead (config : WsConfig) (clientKey : Text) (bytes : Bytes) (read : List Event)
    (w : WsClient) (mode : Mode) (c : Core) (r : Bytes) : Prop where
  stands : Stands config clientKey w mode c r
  accounts : Accounts (wireEvents config clientKey) .fresh bytes read c r
  early : c.state = .connecting → r = bytes
  upgraded : c.state ≠ .connecting → Upgraded config clientKey bytes

namespace HasRead

variable {bytes : Bytes} {read : List Event}

/-- A client that has just been created. -/
theorem stands_created {rng : SystemRandom} (made : WsClient.newClient config rng = .ok w) :
    Stands config w.clientKey w .idle .fresh [] := by
  unfold WsClient.newClient at made
  repeat' split at made
  all_goals cases made
  exact Holds.stands ⟨rfl, rfl, rfl, rfl, ⟨rfl, rfl⟩, .idle rfl rfl ⟨rfl, by simp [Core.fresh]⟩⟩

theorem created {rng : SystemRandom} (made : WsClient.newClient config rng = .ok w) :
    HasRead config w.clientKey [] [] w .idle .fresh [] where
  stands := stands_created made
  accounts := .refl _ _
  early _ := rfl
  upgraded connected := absurd rfl connected

theorem feedRecv (reading : HasRead config clientKey bytes read w mode c r) (chunk : Bytes) :
    HasRead config clientKey (bytes ++ chunk) read (w.feedRecv chunk) mode c (r ++ chunk) where
  stands := reading.stands.feedRecv chunk
  accounts := reading.accounts.feed chunk
  early connecting := by rw [reading.early connecting]
  upgraded connected := (reading.upgraded connected).append chunk

/-- What the client sends does not matter. -/
theorem rewire (reading : HasRead config clientKey bytes read w mode c r) {state : ConnState}
    {tx : TxQueue} {handshakeStarted : Bool} (alike : state.bare = w.state.bare) :
    ∃ c', HasRead config clientKey bytes read { w with state, tx, handshakeStarted } mode c' r ∧
      (∀ rest, wireEvents config clientKey c' rest = wireEvents config clientKey c rest) := by
  have same : state.bare = c.state.bare := by rw [alike, reading.stands.state_eq]
  have connecting : state = .connecting ↔ c.state = .connecting := by
    rw [← ConnState.bare_connecting, same, ConnState.bare_connecting]
  have events (rest : Bytes) :
      wireEvents config clientKey { c with state, outbound := tx.outbound } rest =
        wireEvents config clientKey c rest :=
    wireEvents_alike config clientKey (by simp only [Core.bare, same]) rest
  refine ⟨_, ⟨reading.stands.rewire state fun live => ?_, reading.accounts.move events, ?_, ?_⟩,
    events⟩
  · exact fun early => live (connecting.mp early)
  · exact fun early => reading.early (connecting.mp early)
  · exact fun connected => reading.upgraded fun early => connected (connecting.mpr early)

/-- Reading on to a place where the client stands again. -/
theorem readOn (reading : HasRead config clientKey bytes read w mode c r) {events : List Event}
    {w' : WsClient} {mode' : Mode} {last : Core} {rest : Bytes}
    (reads : ReadsOn config clientKey c r events last rest)
    (stands : Stands config clientKey w' mode' last rest) :
    HasRead config clientKey bytes (read ++ events) w' mode' last rest where
  stands := stands
  accounts := reading.accounts.trans reads.accounts
  early connecting := by
    obtain ⟨-, rfl, rfl⟩ := reads.state.1 connecting
    exact reading.early connecting
  upgraded connected := by
    by_cases early : c.state = .connecting
    · rw [← reading.early early]
      rcases reads.connecting early with ⟨-, rfl, -⟩ | ⟨-, upgraded⟩
      · exact absurd early connected
      · exact upgraded
    · exact reading.upgraded early

end HasRead

/-! ### Where a call leaves the client -/

/-- These are all events that a stream with these bytes in front will ever give. -/
def Over (config : WsConfig) (clientKey : Text) (bytes : Bytes) (read : List Event) : Prop :=
  ∀ more, wireEvents config clientKey .fresh (bytes ++ more) = read

/-- A client that has read these events: it waits, with nothing complete if it has settled and
closing only if that was allowed, or an error has ended the stream. -/
inductive Left (config : WsConfig) (clientKey : Text) (bytes : Bytes) (read : List Event)
    (settled : Bool) (late : Prop) (w : WsClient) : Option WsError → Prop where
  | waits {mode : Mode} {c : Core} {r : Bytes} :
      HasRead config clientKey bytes read w mode c r →
      (settled = true → wireEvents config clientKey c r = []) →
      (w.state = .closing → late) →
      Left config clientKey bytes read settled late w none
  | ended (error : WsError) : Over config clientKey bytes read →
      Left config clientKey bytes read settled late w (some error)

section Left

variable {bytes : Bytes} {read : List Event} {settled : Bool} {late : Prop}
  {error : Option WsError}

theorem Over.feed (ended : Over config clientKey bytes read) (chunk : Bytes) :
    Over config clientKey (bytes ++ chunk) read := by
  intro more
  rw [List.append_assoc]
  exact ended (chunk ++ more)

/-- A client that stopped where nothing follows. -/
theorem HasRead.halts (reading : HasRead config clientKey bytes read w mode c r)
    {events : List Event} {last : Core} {rest : Bytes}
    (reads : ReadsOn config clientKey c r events last rest)
    (halted : Halted config clientKey last rest) :
    Over config clientKey bytes (read ++ events) := by
  intro more
  rw [reading.accounts.trans reads.accounts more, halted more, List.append_nil]

/-- A client that has read what a path decodes. -/
theorem HasRead.decoded {fault : Fault} (lawful : fault.Lawful)
    (reading : HasRead config clientKey bytes read w mode c r) (closing : w.state = .closing → late)
    {w' : WsClient} (reads : Reads config clientKey w' (decode config clientKey fault mode c r) error) :
    Left config clientKey bytes (read ++ (decode config clientKey fault mode c r).events) true late
      w' error := by
  obtain ⟨last, rest, path, waits, stops⟩ := decode_readsOn lawful mode c r
  rw [reads.error]
  cases error : (decode config clientKey fault mode c r).error with
  | none =>
      obtain ⟨rfl, rfl, nothing⟩ := waits error
      obtain ⟨mode', stands⟩ := reads.stands error
      refine .waits (reading.readOn path stands) (fun _ => nothing) fun late => closing ?_
      rw [reading.stands.state_eq]
      exact path.state.2 (stands.state_eq.symm.trans late)
  | some e =>
      have failed : (decode config clientKey fault mode c r).error ≠ none := by simp [error]
      exact .ended e (reading.halts path (stops failed))

theorem Left.weaken {settled' : Bool} (left : Left config clientKey bytes read settled late w error)
    (weaker : settled' = true → settled = true) :
    Left config clientKey bytes read settled' late w error := by
  cases left with
  | waits reading nothing closing =>
      exact .waits reading (fun settled => nothing (weaker settled)) closing
  | ended e ended => exact .ended e ended

/-- What the client sends does not matter. -/
theorem Left.rewire (left : Left config clientKey bytes read settled late w none)
    {state : ConnState} {tx : TxQueue} {handshakeStarted : Bool} (alike : state.bare = w.state.bare)
    (allowed : state = .closing → late) :
    Left config clientKey bytes read settled late { w with state, tx, handshakeStarted } none := by
  cases left with
  | waits reading nothing closing =>
      obtain ⟨c', rewired, same⟩ := reading.rewire alike
      exact .waits rewired (fun settled => (same _).trans (nothing settled)) allowed

/-- Only what the client sends has changed. -/
def WsClient.OnlySends (w w' : WsClient) : Prop :=
  ∃ tx handshakeStarted, w' = { w with tx, handshakeStarted }

omit [AcceptDigest] in
theorem WsClient.OnlySends.refl (w : WsClient) : w.OnlySends w := ⟨w.tx, w.handshakeStarted, rfl⟩

omit [AcceptDigest] in
theorem WsClient.OnlySends.state {w' : WsClient} (sends : w.OnlySends w') : w'.state = w.state := by
  obtain ⟨tx, started, rfl⟩ := sends
  rfl

omit [AcceptDigest] in
theorem WsClient.sendFrame_onlySends (w : WsClient) (opcode : OpCode) (payload : Bytes) :
    w.OnlySends (w.sendFrame opcode payload).1 := by
  unfold WsClient.sendFrame
  split
  next => exact .refl w
  next => exact ⟨_, w.handshakeStarted, rfl⟩

theorem Left.sends (left : Left config clientKey bytes read settled late w none) {w' : WsClient}
    (sends : w.OnlySends w') : Left config clientKey bytes read settled late w' none := by
  obtain ⟨tx, started, rfl⟩ := sends
  refine left.rewire rfl ?_
  cases left with
  | waits reading nothing closing => exact closing

/-- Polling to the end reads on. -/
theorem Left.pollAll (left : Left config clientKey bytes read settled late w none) :
    Left config clientKey bytes (read ++ w.pollAll.2.1) true late w.pollAll.1 w.pollAll.2.2 := by
  cases left with
  | waits reading nothing closing =>
      obtain ⟨events, reads⟩ := pollAll_spec reading.stands
      rw [events]
      exact reading.decoded borrowedFault_lawful closing reads

/-- One call of `pollEvent`: an event only if the client had not settled, and a data event only
if it was past the upgrade and not closed. -/
theorem Left.pollEvent (left : Left config clientKey bytes read settled late w none) {w' : WsClient}
    {event : Option Event} (polled : w.pollEvent = (w', event.map .ok)) :
    Left config clientKey bytes (read ++ event.toList) settled late w' none ∧
      ∀ e, event = some e → settled = false ∧ w.state ≠ .closed ∧
        (w.state = .connecting → e = .handshakeComplete) := by
  cases left with
  | @waits mode c r reading nothing closing =>
      have polls := pollEvent_polls reading.stands
      have core := reading.stands.state_eq
      rw [polled] at polls
      generalize answer : event.map Except.ok = result at polls
      cases polls with
      | waits reads stands nothing' =>
          obtain rfl := Option.map_eq_none_iff.mp answer
          refine ⟨?_, by simp⟩
          refine .waits (reading.readOn reads stands) (fun _ => nothing') fun late => closing ?_
          exact core.trans (reads.state.2 (stands.state_eq.symm.trans late))
      | @event _ e next rest reads stands =>
          obtain ⟨e', rfl, same⟩ := Option.map_eq_some_iff.mp answer
          cases same
          have gives : wireEvents config clientKey c r ≠ [] := by
            rw [reads.accounts.given_eq]
            simp
          refine ⟨?_, ?_⟩
          · refine .waits (reading.readOn reads stands) (fun tidy => absurd (nothing tidy) gives)
              fun late => closing ?_
            exact core.trans (reads.state.2 (stands.state_eq.symm.trans late))
          · intro e' same
            obtain rfl := Option.some.inj same
            refine ⟨Bool.not_eq_true _ ▸ fun tidy => gives (nothing tidy), ?_, ?_⟩
            · intro closed
              exact gives (wireEvents_closed (core.symm.trans closed) r)
            · intro early
              rcases reads.connecting (core.symm.trans early) with ⟨none, -⟩ | ⟨⟨more, first⟩, -⟩
              · cases none
              · exact (List.cons.inj first).1
      | fails => cases event <;> cases answer

/-- What was read comes first among the events of the stream. -/
theorem Left.given (left : Left config clientKey bytes read settled late w error) :
    read <+: wireEvents config clientKey .fresh bytes := by
  cases left with
  | waits reading => exact reading.accounts.given_first
  | ended e ended =>
      have now := ended []
      rw [List.append_nil] at now
      rw [now]

end Left

end Clients

end Talaris.Ws
