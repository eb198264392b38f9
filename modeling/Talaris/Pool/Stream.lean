import Talaris.Connection.Stream
import Talaris.Pool.Visits

/-!
# What a run delivers of a stream

Over a whole run, the bytes that the completions of a plain connection brought are one stream,
and the messages handed to the sinks under its handle are the data messages at the front of
that stream, in order, each once.  Which pumps ran, in which order the connections took their
turns and how the bytes were cut into completions does not matter.
-/

namespace Talaris

open Talaris.Basis
open Talaris.Ws

theorem Completion.received_eq (c : Completion) :
    c.received = if c.userData.kind = some .recv then c.brought else [] := by
  unfold received brought
  cases c.userData.kind with
  | none => rfl
  | some kind => cases kind <;> cases c.bufferId <;> cases c.toResult <;> rfl

section Stream

variable [Rustls] [AcceptDigest]

/-! ## Steps of a connection -/

namespace ConnectionState

variable {config : WsConfig} {clientKey : Text} {bytes : Bytes} {messages : List DataEvent}
  {late : Prop} {conn conn' : ConnectionState}

/-- A positive Recv completion for a connection without a ring is a panic of the source. -/
def panicsOn (conn : ConnectionState) (c : Completion) : Bool :=
  conn.state ≠ .closed && conn.bufRing.isNone && !c.received.isEmpty

theorem Carries.settle {handled : Handled}
    (carries : Carries config clientKey bytes messages late handled) :
    (handled.conn.settle handled.result).Streams config clientKey bytes
      (messages ++ handled.out.flatMap SinkItem.messages) late := by
  cases result : handled.result with
  | error e => exact streams_closed carries.ordered rfl
  | ok n =>
      simp only [ConnectionState.settle, syncs_eq]
      exact (carries.live n result).streams_synced carries.past

/-- More bytes for a connection that is and stays closed. -/
theorem Streams.stays_closed (streams : conn.Streams config clientKey bytes messages late)
    (closed : conn'.state = .closed) (chunk : Bytes) :
    conn'.Streams config clientKey (bytes ++ chunk) messages late :=
  streams_closed
    (streams.ordered.trans ((wireEvents_first .fresh bytes chunk).filterMap Event.data?)) closed

/-- A completion by itself. -/
theorem Streams.completed (streams : conn.Streams config clientKey bytes messages late)
    (proactor : Proactor) (pump : PumpKind) {c : Completion}
    (calm : c.userData.kind.isSome = true → conn.revivable = false)
    (ringed : conn.panicsOn c = false) :
    let handled := (conn.handleCompletionFor proactor pump c).2
    (handled.conn.settle handled.result).Streams config clientKey (bytes ++ c.received)
      (messages ++ handled.out.flatMap SinkItem.messages) late := by
  dsimp only
  by_cases closed : conn.state = .closed
  · obtain ⟨-, out, frozen⟩ := conn.handleCompletionFor_closed closed proactor pump c
    rw [out, List.flatMap_nil, List.append_nil]
    refine streams.stays_closed ?_ _
    cases known : c.userData.kind with
    | none =>
        simp only [handleCompletionFor, known]
        rfl
    | some kind =>
        have ws := congrArg Reader.ws frozen.reader
        refine settle_closed (frozen.state.trans closed) ?_ _
        rw [ws]
        exact not_revivable (calm (by simp [known])) closed
  · have live := streams.live closed
    rw [c.received_eq]
    cases known : c.userData.kind with
    | none =>
        simp only [handleCompletionFor, known, reduceCtorEq, if_false]
        exact (carries_failed live streams.past [] _).settle
    | some kind =>
        simp only [handleCompletionFor, known, if_neg closed, Option.some.injEq]
        apply Carries.settle
        refine dispatchCompletion_carries live streams.past proactor pump kind c ?_
        rintro rfl some_bytes missing
        have received : c.received = c.brought := by rw [c.received_eq, if_pos known]
        simp [panicsOn, closed, missing, received, some_bytes] at ringed

/-- A run of completions. -/
theorem Streams.ran (streams : conn.Streams config clientKey bytes messages late) {pump : PumpKind}
    (data : pump.isData = true) {completions : List Completion} (nonempty : completions ≠ [])
    (able : ∀ c ∈ completions, conn.canHandlePlainRecvDataBatch c = true) :
    let handled := conn.handlePlainRecvDataBatchFor pump completions
    (handled.conn.settle handled.result).Streams config clientKey
      (bytes ++ completions.flatMap Completion.received)
      (messages ++ handled.out.flatMap SinkItem.messages) late := by
  dsimp only
  have active : conn.state ≠ .closed := by
    obtain ⟨c, member⟩ := List.exists_mem_of_ne_nil _ nonempty
    have passed := able c member
    intro closed
    simp [canHandlePlainRecvDataBatch, closed] at passed
  have received : completions.flatMap Completion.received =
      completions.flatMap Completion.brought := by
    apply List.flatMap_congr
    intro c member
    have passed := able c member
    simp only [canHandlePlainRecvDataBatch, Bool.and_eq_true, decide_eq_true_eq] at passed
    rw [c.received_eq, if_pos passed.1.1.2]
  rw [received]
  exact (handlePlainRecvDataBatchFor_carries data (streams.live active) streams.past able).settle

/-- Polling to the end. -/
theorem Streams.polled (streams : conn.Streams config clientKey bytes messages late)
    (active : conn.state ≠ .closed) {ws : WsClient} {events : List Event}
    (polled : conn.ws.pollAll = (ws, events, none)) :
    { conn with ws }.syncWsOpenState.syncWsCloseState.clearWsIngressDirty.Streams config clientKey
      bytes (messages ++ events.filterMap Event.data?) late := by
  obtain ⟨⟨read, given, left⟩, plain, slots⟩ := streams.live active
  have next := left.pollAll
  have uses := conn.ws.pollAll_uses
  rw [polled] at next uses
  have live : { conn with ws, wsIngress := .clean }.Live config clientKey bytes
      (messages ++ events.filterMap Event.data?) late :=
    ⟨⟨read ++ events, by rw [List.filterMap_append, given], next.weaken fun _ => rfl⟩, plain, slots⟩
  rw [syncs_eq]
  exact live.streams_synced (streams.past.uses rfl uses)

theorem Streams.pollFailed (streams : conn.Streams config clientKey bytes messages late)
    (active : conn.state ≠ .closed) {ws : WsClient} {events : List Event} {e : WsError}
    (polled : conn.ws.pollAll = (ws, events, some e)) :
    { conn with ws, state := .closed }.syncWsOpenState.syncWsCloseState.clearWsIngressDirty.Streams
      config clientKey bytes (messages ++ events.filterMap Event.data?) late := by
  obtain ⟨⟨read, given, left⟩, -, -⟩ := streams.live active
  have next := left.pollAll
  rw [polled] at next
  apply streams_closed
  · rw [← given, ← List.filterMap_append]
    exact next.given.filterMap Event.data?
  · rw [syncs_eq]
    exact syncedState_closed rfl (WsClient.pollAll_error_ending polled).ne_open

/-- One event of a connection that is driven open goes to no sink; it is no message. -/
theorem Streams.driven (streams : conn.Streams config clientKey bytes messages late)
    (notOpen : conn.state ≠ .isOpen) (active : conn.state ≠ .closed)
    (calm : conn.reopening = false) (early : ¬ late) {ws : WsClient} {event : Option Event}
    (polled : conn.ws.pollEvent = (ws, event.map .ok)) :
    { conn with ws }.syncWsOpenState.syncWsCloseState.Streams config clientKey bytes messages
      late := by
  obtain ⟨⟨read, given, left⟩, plain, slots⟩ := streams.live active
  obtain ⟨next, gives⟩ := left.pollEvent polled
  have uses := conn.ws.pollEvent_uses
  rw [polled] at uses
  have silent : event.toList.filterMap Event.data? = [] := by
    cases event with
    | none => rfl
    | some e =>
        obtain ⟨-, alive, first⟩ := gives e rfl
        have connecting : conn.ws.state = .connecting := by
          cases state : conn.ws.state with
          | connecting => rfl
          | isOpen =>
              have rank := streams.follows active state
              cases phase : conn.state <;>
                simp_all [State.rank, ConnectionState.reopening]
          | closing =>
              cases left with
              | waits reading nothing closing => exact absurd (closing state) early
          | closed => exact absurd state alive
        rw [first connecting]
        rfl
  have live : { conn with ws }.Live config clientKey bytes messages late :=
    ⟨⟨read ++ event.toList, by rw [List.filterMap_append, silent, List.append_nil, given], next⟩,
      plain, slots⟩
  rw [syncs_eq]
  exact live.streams_synced (streams.past.uses rfl uses)

theorem Streams.driveSynced (streams : conn.Streams config clientKey bytes messages late)
    (calm : conn.revivable = false) :
    conn.syncWsOpenState.Streams config clientKey bytes messages late := by
  rw [syncWsOpenState_eq]
  by_cases isOpen : conn.ws.state = .isOpen
  · have active : conn.state ≠ .closed := fun closed => not_revivable calm closed isOpen
    have live : { conn with state := .isOpen }.Live config clientKey bytes messages late :=
      (streams.live active).of_same rfl rfl rfl rfl
    rw [if_pos isOpen]
    refine live.streams (fun _ _ => Nat.le_refl _) fun _ _ early => ?_
    have same : conn.ws.state = .connecting := early
    rw [isOpen] at same
    cases same
  · rw [if_neg isOpen]
    exact streams

theorem Streams.sent (streams : conn.Streams config clientKey bytes messages late) {ws : WsClient}
    (sends : conn.ws.OnlySends ws) :
    { conn with ws }.Streams config clientKey bytes messages late := by
  have sendsOnly : conn.SendsOnly { conn with ws } := ⟨sends, fun plain => plain, rfl, rfl, rfl⟩
  exact streams.sends sendsOnly

/-- The submit phase takes the stream no further. -/
theorem Streams.submitted (streams : conn.Streams config clientKey bytes messages late)
    {proactor proactor' : Proactor} {result : Except ConnectionError Unit}
    (sent : conn.trySubmitSend proactor = (conn', proactor', result)) :
    conn'.Streams config clientKey bytes messages late := by
  have sends := conn.trySubmitSend_sendsOnly proactor
  rw [sent] at sends
  exact streams.sends sends

theorem Streams.rearmed (streams : conn.Streams config clientKey bytes messages late)
    {proactor proactor' : Proactor} {result : Except ConnectionError Unit}
    (armed : conn.tryRearmMultishot proactor = (conn', proactor', result)) :
    conn'.Streams config clientKey bytes messages late := by
  have sends := conn.tryRearmMultishot_sendsOnly proactor
  rw [armed] at sends
  exact streams.sends sends

omit [Rustls] [AcceptDigest] in
/-- What a close of the user makes of the client. -/
theorem sendClose_cases (w : WsClient) (code : Nat) (reason : Bytes) :
    (w.sendClose code reason = (w, .ok ()) ∧ (w.state = .closing ∨ w.state = .closed)) ∨
      (∃ e, w.sendClose code reason = (w, .error e)) ∨
      ∃ tx, w.sendClose code reason = ({ w with state := .closing, tx }, .ok ()) ∧
        w.state = .isOpen := by
  unfold WsClient.sendClose
  split
  next ended => exact .inl ⟨rfl, ended⟩
  next =>
    split
    next => exact .inr (.inl ⟨_, rfl⟩)
    next isOpen =>
      rw [ne_eq, Decidable.not_not] at isOpen
      split
      next => exact .inr (.inl ⟨_, rfl⟩)
      next =>
        split
        next => exact .inr (.inl ⟨_, rfl⟩)
        next => exact .inr (.inr ⟨_, rfl, isOpen⟩)

omit [Rustls] [AcceptDigest] in
theorem sendClose_refused {w ws : WsClient} {code : Nat} {reason : Bytes} {e : WsError}
    (refused : w.sendClose code reason = (ws, .error e)) : ws = w := by
  rcases sendClose_cases w code reason with ⟨sent, -⟩ | ⟨e, sent⟩ | ⟨tx, sent, -⟩
  · rw [sent] at refused
    cases refused
  · rw [sent] at refused
    cases refused
    rfl
  · rw [sent] at refused
    cases refused

theorem Streams.closing (streams : conn.Streams config clientKey bytes messages late)
    (active : conn.state ≠ .closed) (allowed : late) {code : Nat} {reason : Bytes} {ws : WsClient}
    (sends : conn.ws.sendClose code reason = (ws, .ok ())) :
    ({ conn with ws, state := if conn.state = .isOpen then .closing else conn.state } :
      ConnectionState).Streams config clientKey bytes messages late := by
  have live := streams.live active
  obtain ⟨same, ended⟩ | ⟨e, refused⟩ | ⟨tx, closes, isOpen⟩ := sendClose_cases conn.ws code reason
  · rw [same] at sends
    cases sends
    have still : ({ conn with state := if conn.state = .isOpen then .closing else conn.state } :
        ConnectionState).Live config clientKey bytes messages late := live.of_same rfl rfl rfl rfl
    refine still.streams (fun _ follows => ?_) fun _ _ early => ?_
    · have state : conn.ws.state = .isOpen := follows
      simp [state] at ended
    · have state : conn.ws.state = .connecting := early
      simp [state] at ended
  · rw [refused] at sends
    cases sends
  · rw [closes] at sends
    cases sends
    obtain ⟨⟨read, given, left⟩, plain, slots⟩ := live
    have alike : ConnState.closing.bare = conn.ws.state.bare := by rw [isOpen]; rfl
    refine Live.streams ⟨⟨read, given, left.rewire alike fun _ => allowed⟩, plain, slots⟩
      (fun _ follows => ?_) fun _ _ early => ?_
    · cases follows
    · cases early

end ConnectionState

/-! ## Histories -/

/-- The bytes that the completions of a connection brought. -/
def HistoryEntry.bytesOf (h : ConnHandle) : HistoryEntry → Bytes
  | received h' bytes => if h' = h then bytes else []
  | opened .. | delivered .. => []

/-- The messages handed out under a handle. -/
def HistoryEntry.messagesOf (h : ConnHandle) : HistoryEntry → List DataEvent
  | delivered h' item => if h' = h then item.messages else []
  | opened .. | received .. => []

namespace System

/-- The stream of a connection so far. -/
def received (sys : System) (h : ConnHandle) : Bytes :=
  sys.history.flatMap (HistoryEntry.bytesOf h)

/-- What the sinks have got of it. -/
def delivered (sys : System) (h : ConnHandle) : List DataEvent :=
  sys.history.flatMap (HistoryEntry.messagesOf h)

/-- The next dispatch step is a panic of the source. -/
def panics (sys : System) : PoolLabel → Bool
  | .dispatch _ =>
      match sys.pool.completionsBuf with
      | [] => false
      | c :: _ =>
          (PumpCall.connForCompletion sys.pool.conns c).any fun slot => slot.2.panicsOn c
  | _ => false

/-- Every connection of the run is in step with its stream. -/
structure InStep (sys : System) : Prop where
  known : ∀ h, h ∉ sys.handles → sys.received h = [] ∧ sys.delivered h = []
  ordered : ∀ h ws, .opened h ws true ∈ sys.history → sys.delivered h <+:
    (wireEvents ws.config ws.clientKey .fresh (sys.received h)).filterMap Event.data?
  seated : ∀ i conn ws, sys.pool.connAt i = some conn →
    .opened (ConnHandle.fromConn conn) ws true ∈ sys.history →
    conn.Streams ws.config ws.clientKey (sys.received (ConnHandle.fromConn conn))
      (sys.delivered (ConnHandle.fromConn conn)) (sys.driving ≠ some i)

variable {sys sys' : System}

omit [Rustls] [AcceptDigest] in
theorem handle_of_opened {history : List HistoryEntry} {h : ConnHandle} {ws : WsClient}
    {plain : Bool} (opened : .opened h ws plain ∈ history) :
    h ∈ history.filterMap HistoryEntry.handle? :=
  List.mem_filterMap.mpr ⟨_, opened, rfl⟩

omit [AcceptDigest] in
/-- The bytes that a visit takes are those of the connection visited. -/
theorem received_turn {i : Nat} {conn conn' : ConnectionState} {consumed : List Completion}
    {items : List SinkItem} (turn : Turn sys sys' i conn conn' consumed items) (h : ConnHandle) :
    sys'.received h = sys.received h ++
      if h = ConnHandle.fromConn conn then consumed.flatMap Completion.received else [] := by
  rw [System.received, turn.history, List.flatMap_append, recorded]
  by_cases ours : h = ConnHandle.fromConn conn
  · subst ours
    cases consumed <;> simp [HistoryEntry.bytesOf, List.flatMap_map, System.received]
  · have other : ConnHandle.fromConn conn ≠ h := fun is => ours is.symm
    cases consumed <;>
      simp [HistoryEntry.bytesOf, List.flatMap_map, System.received, ours, other]

omit [AcceptDigest] in
theorem delivered_turn {i : Nat} {conn conn' : ConnectionState} {consumed : List Completion}
    {items : List SinkItem} (turn : Turn sys sys' i conn conn' consumed items) (h : ConnHandle) :
    sys'.delivered h = sys.delivered h ++
      if h = ConnHandle.fromConn conn then items.flatMap SinkItem.messages else [] := by
  rw [System.delivered, turn.history, List.flatMap_append, recorded]
  by_cases ours : h = ConnHandle.fromConn conn
  · subst ours
    cases consumed <;> simp [HistoryEntry.messagesOf, List.flatMap_map, System.delivered]
  · have other : ConnHandle.fromConn conn ≠ h := fun is => ours is.symm
    cases consumed <;>
      simp [HistoryEntry.messagesOf, List.flatMap_map, System.delivered, ours, other]

omit [AcceptDigest] in
/-- A visit opens no connection. -/
theorem opened_turn {i : Nat} {conn conn' : ConnectionState} {consumed : List Completion}
    {items : List SinkItem} (turn : Turn sys sys' i conn conn' consumed items) {h : ConnHandle}
    {ws : WsClient} {plain : Bool} (opened : .opened h ws plain ∈ sys'.history) :
    .opened h ws plain ∈ sys.history := by
  rw [turn.history] at opened
  rcases List.mem_append.mp opened with earlier | later
  · exact earlier
  · unfold recorded at later
    rcases List.mem_append.mp later with received | delivered
    · split at received
      next => cases received
      next => cases List.mem_singleton.mp received
    · obtain ⟨item, -, same⟩ := List.mem_map.mp delivered
      cases same

/-- A visit that keeps the connection in step with its stream. -/
theorem InStep.turn (inStep : sys.InStep) (slots : Slots sys.pool sys.handles) {i : Nat}
    {conn conn' : ConnectionState} {consumed : List Completion} {items : List SinkItem}
    (turn : Turn sys sys' i conn conn' consumed items)
    (keeps : ∀ {config : WsConfig} {clientKey : Text} {before : Bytes} {given : List DataEvent},
      conn.Streams config clientKey before given (sys.driving ≠ some i) →
      conn'.Streams config clientKey (before ++ consumed.flatMap Completion.received)
        (given ++ items.flatMap SinkItem.messages) (sys.driving ≠ some i)) : sys'.InStep := by
  have current := slots.seated i conn turn.found
  have stepped {ws : WsClient}
      (opened : .opened (ConnHandle.fromConn conn) ws true ∈ sys.history) :
      conn'.Streams ws.config ws.clientKey (sys'.received (ConnHandle.fromConn conn))
        (sys'.delivered (ConnHandle.fromConn conn)) (sys.driving ≠ some i) := by
    rw [received_turn turn, delivered_turn turn, if_pos rfl, if_pos rfl]
    exact keeps (inStep.seated i conn ws turn.found opened)
  constructor
  case known =>
    intro h unknown
    rw [turn.handles] at unknown
    have other : h ≠ ConnHandle.fromConn conn := fun is => unknown (is ▸ current)
    rw [received_turn turn, delivered_turn turn, if_neg other, if_neg other, List.append_nil,
      List.append_nil]
    exact inStep.known h unknown
  case ordered =>
    intro h ws opened
    have before := opened_turn turn opened
    by_cases is : h = ConnHandle.fromConn conn
    · subst is
      exact (stepped before).ordered
    · rw [received_turn turn, delivered_turn turn, if_neg is, if_neg is, List.append_nil,
        List.append_nil]
      exact inStep.ordered h ws before
  case seated =>
    intro j now ws here opened
    have before := opened_turn turn opened
    rcases turn.cases here with ⟨rfl, rfl⟩ | ⟨slot, there⟩
    · rw [turn.handle] at before ⊢
      exact (stepped before).mono turn.idle
    · have other : ConnHandle.fromConn now ≠ ConnHandle.fromConn conn := fun is =>
        slot (slots.handle_unique there turn.found is)
      rw [received_turn turn, delivered_turn turn, if_neg other, if_neg other, List.append_nil,
        List.append_nil]
      exact (inStep.seated j now ws there before).mono turn.idle

/-- A step that touches no connection, but may take one out of its slot. -/
theorem InStep.same (inStep : sys.InStep)
    (conns : ∀ j now, sys'.pool.connAt j = some now → sys.pool.connAt j = some now)
    (history : sys'.history = sys.history)
    (driving : sys'.driving = sys.driving ∨ sys'.driving = none) : sys'.InStep := by
  have handles : sys'.handles = sys.handles := by
    rw [System.handles, history]
    rfl
  have received (h : ConnHandle) : sys'.received h = sys.received h := by
    rw [System.received, history]
    rfl
  have delivered (h : ConnHandle) : sys'.delivered h = sys.delivered h := by
    rw [System.delivered, history]
    rfl
  constructor
  case known =>
    intro h unknown
    rw [handles] at unknown
    rw [received, delivered]
    exact inStep.known h unknown
  case ordered =>
    intro h ws opened
    rw [history] at opened
    rw [received, delivered]
    exact inStep.ordered h ws opened
  case seated =>
    intro j now ws here opened
    rw [history] at opened
    rw [received, delivered]
    refine (inStep.seated j now ws (conns j now here) opened).mono fun idle => ?_
    rcases driving with kept | ended
    · rwa [kept]
    · simp [ended]

omit [Rustls] in
theorem wireEvents_nothing (config : WsConfig) (clientKey : Text) :
    wireEvents config clientKey .fresh [] = [] := by
  have waits : Core.fresh.judge config clientKey [] = .needMore := rfl
  rw [wireEvents, scan_needMore waits]

/-- A connection that has just been created. -/
theorem streams_created {cfg : ConnectionConfig} {addr : SocketAddr} {opening : Opening}
    {conn : ConnectionState} (made : ConnectionState.Made cfg conn.identity addr opening conn)
    (connecting : conn.state = .connecting) (plain : conn.tls = none) (late : Prop) :
    conn.Streams conn.ws.config conn.ws.clientKey [] [] late := by
  have reading := HasRead.created made.ws
  have limits := reading.stands.holds.config
  rw [WsClient.clearAfterEmit_config] at limits
  have state : conn.ws.state = .connecting := reading.stands.state_eq
  have left : Left cfg.effectiveWsConfig conn.ws.clientKey [] [] (conn.wsIngress = .clean) late
      conn.ws none :=
    .waits reading (fun _ => wireEvents_nothing _ _) (by simp [state])
  rw [limits]
  refine ConnectionState.Live.streams ⟨⟨[], rfl, left⟩, plain, by simp [made.ring]⟩
    (fun _ isOpen => ?_) fun _ rank => ?_
  · simp [state] at isOpen
  · simp [connecting, State.rank] at rank

theorem InStep.connect (inStep : sys.InStep) (slots : Slots sys.pool sys.handles) (cfg : ConnectionConfig) (addr : SocketAddr) (opening : Opening)
    (blocking : Bool) : (sys.openConn cfg addr opening blocking).InStep := by
  rcases openConn_cases slots cfg addr opening blocking with
    ⟨slot, fresh, e, stock, -, same⟩ |
    ⟨slot, fresh, conn, rest, bgids, proactor, stock, made, connecting, free, -, generation, -, -,
      same⟩
  · rw [same]
    refine inStep.same (fun j now here => ?_) rfl (.inl rfl)
    rwa [← Pool.connAt_stocked]
  · have unknown := (slots.stocked stock).fresh free generation
    have inside := ((slots.stocked stock).freeVacant conn.identity.connId (by simp [free])).1
    generalize next : sys.openConn cfg addr opening blocking = sys' at same ⊢
    have history : sys'.history =
        sys.history ++ [.opened (ConnHandle.fromConn conn) conn.ws conn.tls.isNone] := by rw [same]
    have received (h : ConnHandle) : sys'.received h = sys.received h := by
      simp [System.received, history, HistoryEntry.bytesOf]
    have delivered (h : ConnHandle) : sys'.delivered h = sys.delivered h := by
      simp [System.delivered, history, HistoryEntry.messagesOf]
    have cases_opened {h : ConnHandle} {ws : WsClient} (opened : .opened h ws true ∈ sys'.history) :
        .opened h ws true ∈ sys.history ∨
          (h = ConnHandle.fromConn conn ∧ ws = conn.ws ∧ conn.tls = none) := by
      rw [history] at opened
      rcases List.mem_append.mp opened with earlier | new
      · exact .inl earlier
      · simp only [List.mem_singleton, HistoryEntry.opened.injEq] at new
        exact .inr ⟨new.1, new.2.1, by simpa using new.2.2.symm⟩
    have nothing := inStep.known _ unknown
    constructor
    case known =>
      intro h never
      rw [received, delivered]
      refine inStep.known h fun earlier => never ?_
      rw [System.handles, history, List.filterMap_append]
      exact List.mem_append_left _ earlier
    case ordered =>
      intro h ws opened
      rw [received, delivered]
      rcases cases_opened opened with earlier | ⟨rfl, -, -⟩
      · exact inStep.ordered h ws earlier
      · rw [nothing.2]
        exact List.nil_prefix
    case seated =>
      intro j now ws here opened
      rw [received, delivered]
      rw [same] at here
      rcases Pool.connAt_occupied_cases inside here with ⟨rfl, rfl⟩ | ⟨other, there⟩
      · rcases cases_opened opened with earlier | ⟨-, rfl, plain⟩
        · exact absurd (handle_of_opened earlier) unknown
        · rw [nothing.1, nothing.2]
          exact streams_created made connecting plain _
      · rw [Pool.connAt_stocked] at there
        rcases cases_opened opened with earlier | ⟨is, -, -⟩
        · refine (inStep.seated j now ws there earlier).mono fun _ => ?_
          rw [same]
          dsimp only
          split
          next => simpa using Ne.symm other
          next => simp
        · exact absurd (is ▸ slots.seated j now there) unknown

/-! ## One step of the machine -/

omit [Rustls] [AcceptDigest] in
theorem messages_events (events : List Event) :
    (events.map SinkItem.event).flatMap SinkItem.messages = events.filterMap Event.data? := by
  rw [List.flatMap_map, List.filterMap_eq_flatMap_toList]
  rfl

omit [Rustls] [AcceptDigest] in
theorem run_onlySends (what : SendCall) (w : WsClient) :
    w.OnlySends (what.run w).1 := by
  cases what with
  | text payload =>
      simp only [SendCall.run, WsClient.sendText]
      split
      · exact .refl w
      · exact w.sendFrame_onlySends .text payload
  | binary payload => exact w.sendFrame_onlySends .binary payload
  | ping payload =>
      simp only [SendCall.run, WsClient.sendPing]
      split
      · exact .refl w
      · exact w.sendFrame_onlySends .ping payload
  | pong payload =>
      simp only [SendCall.run, WsClient.sendPong]
      split
      · exact .refl w
      · exact w.sendFrame_onlySends .pong payload

/-- What a visit makes of the stream. -/
theorem visit_streams {i : Nat} {conn conn' : ConnectionState} {label : PoolLabel}
    {consumed : List Completion} {items : List SinkItem}
    (visit : Visit sys i conn label consumed conn' items) (found : sys.pool.connAt i = some conn)
    (calm : sys.turnsBack label = false) (sound : sys.panics label = false) {config : WsConfig}
    {clientKey : Text} {before : Bytes} {given : List DataEvent}
    (streams : conn.Streams config clientKey before given (sys.driving ≠ some i)) :
    conn'.Streams config clientKey (before ++ consumed.flatMap Completion.received)
      (given ++ items.flatMap SinkItem.messages) (sys.driving ≠ some i) := by
  have settled (synced : sys.synced label = some i) :
      conn.revivable = false ∧ conn.reopening = false := by
    simpa using System.calm_of_synced calm synced found
  cases visit with
  | completed pump c rest buffered routed handles =>
      rw [List.flatMap_singleton]
      have next := streams.completed sys.pool.proactor pump (c := c) ?_ ?_
      · rw [handles] at next
        exact next
      · intro known
        exact (settled (by simp [System.synced, buffered, known, routed])).1
      · simpa [panics, buffered, routed] using sound
  | ran pump _ data nonempty able => exact streams.ran data nonempty able
  | polled active polled =>
      rw [messages_events, List.flatMap_nil, List.append_nil]
      exact streams.polled active polled
  | pollFailed active polled =>
      rw [messages_events, List.flatMap_nil, List.append_nil]
      exact streams.pollFailed active polled
  | submitted sent armed =>
      simpa using (streams.submitted sent).rearmed armed
  | sendFailed sent =>
      simpa using (streams.submitted sent).fails
  | rearmFailed sent armed =>
      simpa using ((streams.submitted sent).rearmed armed).fails
  | skipped closed =>
      rw [List.flatMap_nil, List.flatMap_nil, List.append_nil, List.append_nil]
      exact ConnectionState.streams_closed streams.ordered closed
  | driven driving ended notOpen active polled =>
      have synced : sys.synced .driveTarget = some i := by simp [System.synced, ended, driving]
      have early : ¬ (sys.driving ≠ some i) := fun idle => idle driving
      simpa using streams.driven notOpen active (settled synced).2 early polled
  | driveFailed active =>
      rw [List.flatMap_nil, List.flatMap_nil, List.append_nil, List.append_nil]
      exact ConnectionState.streams_closed streams.ordered rfl
  | driveSynced driving ended =>
      have synced : sys.synced .driveVerdict = some i := by simp [System.synced, ended, driving]
      simpa using streams.driveSynced (settled synced).1
  | sent h what => simpa using streams.sent (run_onlySends what conn.ws)
  | closeRefused h code reason active refused =>
      have same := ConnectionState.sendClose_refused refused
      subst same
      simpa using streams
  | closing h code reason idle active _ sent =>
      simp only [System.idle, Bool.and_eq_true, Option.isNone_iff_eq_none] at idle
      have late : sys.driving ≠ some i := by simp [idle.2]
      simpa using streams.closing active late sent

/-- A step keeps every connection in step with its stream. -/
theorem InStep.step (inStep : sys.InStep) (slots : Slots sys.pool sys.handles) (label : PoolLabel)
    (calm : sys.turnsBack label = false) (sound : sys.panics label = false) :
    (poolMachine.step sys label).1.InStep := by
  have outcome := step_outcome slots label
  generalize (poolMachine.step sys label).1 = sys' at outcome ⊢
  cases outcome with
  | same conns history driving => exact inStep.same conns history driving
  | opened cfg addr opening blocking _ made =>
      rw [made]
      exact inStep.connect slots cfg addr opening blocking
  | visited turn visit =>
      exact inStep.turn slots turn fun streams => visit_streams visit turn.found calm sound streams

/-- A run in which no step turns a connection back and none panics. -/
def orderly (sys : System) (label : PoolLabel) : Prop :=
  sys.turnsBack label = false ∧ sys.panics label = false

instance : ∀ (sys : System) (label : PoolLabel), Decidable (sys.orderly label) :=
  fun sys label => inferInstanceAs
    (Decidable (sys.turnsBack label = false ∧ sys.panics label = false))

theorem InStep.reach (reached : poolMachine.Reach orderly sys) : sys.InStep := by
  induction reached with
  | start initial =>
      obtain ⟨_, _, _, _, rfl⟩ := initial_spec initial
      constructor <;> simp [Pool.connAt, System.received, System.delivered]
  | next label reached admitted ih =>
      exact ih.step (slots_reach reached) label admitted.1 admitted.2

/-- The connection of a handle, in step with the stream of the handle. -/
theorem InStep.streams (inStep : sys.InStep) {h : ConnHandle} {ws : WsClient}
    {conn : ConnectionState} (opened : .opened h ws true ∈ sys.history)
    (found : sys.pool.lookup h = some conn) :
    conn.Streams ws.config ws.clientKey (sys.received h) (sys.delivered h)
      (sys.driving ≠ some h.asU32) := by
  obtain ⟨here, token⟩ := Option.filter_eq_some_iff.mp found
  have same : ConnHandle.fromConn conn = h := by
    have raw : conn.token = h.raw := by simpa using token
    exact congrArg ConnHandle.mk raw
  have opened' : .opened (ConnHandle.fromConn conn) ws true ∈ sys.history := same.symm ▸ opened
  have streams := inStep.seated h.asU32 conn ws here opened'
  rwa [same] at streams

theorem InStep.delivered_all (inStep : sys.InStep) {h : ConnHandle} {ws : WsClient}
    (opened : .opened h ws true ∈ sys.history) {conn : ConnectionState}
    (found : sys.pool.lookup h = some conn) (active : conn.state ≠ .closed)
    (clean : conn.wsIngress = .clean) :
    sys.delivered h =
      (wireEvents ws.config ws.clientKey .fresh (sys.received h)).filterMap Event.data? := by
  obtain ⟨read, given, left⟩ := ((inStep.streams opened found).live active).reads
  cases left with
  | waits reading nothing =>
      rw [← given, reading.accounts.given_all (nothing (by simp [clean]))]

end System

variable {sys : System}

/-- The messages handed to the sinks under the handle of a plain connection are, in order, the
first data messages of the bytes that its completions brought; all of them, as soon as a live
connection has read what it holds. -/
theorem delivered_from_stream (reached : poolMachine.Reach System.orderly sys) {h : ConnHandle}
    {ws : WsClient} (opened : .opened h ws true ∈ sys.history) :
    sys.delivered h <+:
        (wireEvents ws.config ws.clientKey .fresh (sys.received h)).filterMap Event.data? ∧
      ∀ conn, sys.pool.lookup h = some conn → conn.state ≠ .closed → conn.wsIngress = .clean →
        sys.delivered h =
          (wireEvents ws.config ws.clientKey .fresh (sys.received h)).filterMap Event.data? := by
  have inStep := System.InStep.reach reached
  exact ⟨inStep.ordered h ws opened, fun conn found active clean =>
    inStep.delivered_all opened found active clean⟩

end Stream

/-! ## A stream in two pieces -/

section Greeting

attribute [local instance] Sample.rustls Ws.Sample.digest

/-- The entry hands out the handle of a plain connection with this key and these settings. -/
def HistoryEntry.opensPlain (h : ConnHandle) (config : WsConfig) (clientKey : Text) :
    HistoryEntry → Bool
  | opened h' ws plain => h' = h && plain && ws.config = config && ws.clientKey = clientKey
  | received .. | delivered .. => false

theorem HistoryEntry.opens_spec {history : List HistoryEntry} {h : ConnHandle} {config : WsConfig}
    {clientKey : Text} (opens : history.any (opensPlain h config clientKey) = true) :
    ∃ ws, .opened h ws true ∈ history ∧ ws.config = config ∧ ws.clientKey = clientKey := by
  obtain ⟨entry, member, handed⟩ := List.any_eq_true.mp opens
  cases entry with
  | opened h' ws plain =>
      simp only [opensPlain, Bool.and_eq_true, decide_eq_true_eq] at handed
      obtain ⟨⟨⟨rfl, rfl⟩, settings⟩, key⟩ := handed
      exact ⟨ws, member, settings, key⟩
  | received | delivered => cases handed

/-- Behind the upgrade, a text message cut in two. -/
def greeting : List PoolLabel :=
  Sample.upgrade ++ [.post ⟨0, 3, 3, [0x81, 0x02, 0x68]⟩, .drain, .dispatch .data,
    .post ⟨0, 1, 3, [0x69]⟩, .drain, .dispatch .dataBatches]

/-- The machine behind these steps. -/
def greeted (steps : List PoolLabel) : System :=
  (poolMachine.run (Sample.start 256 fun _ => none) steps).1

/-- The connection is open and has read all. -/
def System.settledAt (sys : System) (h : ConnHandle) : Bool :=
  (sys.pool.lookup h).any fun conn => conn.state = .isOpen && conn.wsIngress = .clean

theorem settledAt_spec {sys : System} {h : ConnHandle} (settled : sys.settledAt h = true) :
    ∃ conn, sys.pool.lookup h = some conn ∧ conn.state ≠ .closed ∧ conn.wsIngress = .clean := by
  obtain ⟨conn, found, holds⟩ := (Option.any_eq_true _ _).mp settled
  simp only [Bool.and_eq_true, decide_eq_true_eq] at holds
  exact ⟨conn, found, by simp [holds.1], holds.2⟩

theorem greeted_opened : ∃ ws, .opened Sample.handle ws true ∈ (greeted greeting).history ∧
    ws.config = Sample.config.effectiveWsConfig ∧ ws.clientKey = Ws.Sample.key :=
  HistoryEntry.opens_spec (by decide +kernel)

theorem delivered_from_stream_greeted :
    ∃ ws : WsClient, (greeted greeting).delivered Sample.handle = [.text [0x68, 0x69]] ∧
      (greeted greeting).delivered Sample.handle =
        (wireEvents ws.config ws.clientKey .fresh
          ((greeted greeting).received Sample.handle)).filterMap Event.data? := by
  have reached : poolMachine.Reach System.orderly (greeted greeting) :=
    .run (.start (Sample.start_initial _ (by decide))) _ (by decide +kernel)
  obtain ⟨ws, opened, -⟩ := greeted_opened
  obtain ⟨conn, found, active, clean⟩ := settledAt_spec
    (show (greeted greeting).settledAt Sample.handle = true by decide +kernel)
  exact ⟨ws, by decide +kernel, (delivered_from_stream reached opened).2 conn found active clean⟩

end Greeting

end Talaris
