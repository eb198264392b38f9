import Talaris.Pool.Groups

/-!
# The life of a connection

The driver's state is written in many places, but only one of them can move it back:
`sync_ws_open_state` puts the driver into `Open` whenever the WebSocket client is open, also
when the driver has closed the connection.  Runs in which that does not happen keep the
order of life, and the count of active connections with it.
-/

namespace Talaris

open Talaris.Basis
open Talaris.Ws

section Lifecycle

variable [Rustls]

namespace ConnectionState

/-- A closed connection that would follow its open client. -/
def revivable (conn : ConnectionState) : Bool := conn.state = .closed && conn.ws.state = .isOpen

/-- A closing connection whose client is open or may still open. -/
def reopening (conn : ConnectionState) : Bool :=
  conn.state = .closing && (conn.ws.state = .connecting || conn.ws.state = .isOpen)

theorem not_revivable {conn : ConnectionState} (calm : conn.revivable = false)
    (closed : conn.state = .closed) : conn.ws.state ≠ .isOpen := by
  simpa [revivable, closed] using calm

theorem settle_closed {α : Type} {conn : ConnectionState} (closed : conn.state = .closed)
    (notOpen : conn.ws.state ≠ .isOpen) (result : Except ConnectionError α) :
    (conn.settle result).state = .closed := by
  cases result with
  | error e => rfl
  | ok value =>
      simp only [settle, syncs_eq]
      exact syncedState_closed closed notOpen

end ConnectionState

/-- The connection that a step lets follow its WebSocket state is revived by it. -/
def System.revives (sys : System) (label : PoolLabel) : Bool :=
  ((sys.synced label).bind sys.pool.connAt).any ConnectionState.revivable

/-- The step may move a connection back along its life. -/
def System.turnsBack (sys : System) (label : PoolLabel) : Bool :=
  ((sys.synced label).bind sys.pool.connAt).any fun conn => conn.revivable || conn.reopening

/-! ## A closed connection -/

section Closed

variable [AcceptDigest]

open ConnectionState

theorem ConnStep.closed {proactor proactor' : Proactor} {conn conn' : ConnectionState}
    {syncs : Bool} {consumed : List Completion} {items : List SinkItem}
    (stepped : ConnStep proactor conn syncs consumed proactor' conn' items)
    (isClosed : conn.state = .closed) (calm : syncs = true → conn.ws.state ≠ .isOpen) :
    conn'.state = .closed ∧ items = [] ∧ conn'.toReader = conn.toReader := by
  have quiet : conn.quiet = true := by simp [ConnectionState.quiet, isClosed]
  have unsent : conn.trySubmitSend proactor = (conn, proactor, .ok ()) := by
    simp [trySubmitSend, quiet]
  have unarmed : conn.tryRearmMultishot proactor = (conn, proactor, .ok ()) := by
    simp [tryRearmMultishot, quiet]
  cases stepped with
  | submitted sent armed =>
      rw [unsent] at sent
      cases sent
      rw [unarmed] at armed
      cases armed
      exact ⟨isClosed, rfl, rfl⟩
  | sendFailed sent =>
      rw [unsent] at sent
      cases sent
  | rearmFailed sent armed =>
      rw [unsent] at sent
      cases sent
      rw [unarmed] at armed
      cases armed
  | completed pump c handles =>
      obtain ⟨-, out, frozen⟩ := conn.handleCompletionFor_closed isClosed proactor pump c
      cases known : c.userData.kind with
      | none =>
          simp only [handleCompletionFor, known, Prod.mk.injEq] at handles
          obtain ⟨-, rfl⟩ := handles
          exact ⟨rfl, rfl, rfl⟩
      | some kind =>
          rw [handles] at out frozen
          refine ⟨?_, out, ?_⟩
          · have ws : _ = conn.ws := congrArg Reader.ws frozen.reader
            exact settle_closed (frozen.state.trans isClosed) (ws ▸ calm (by simp [known])) _
          · obtain ⟨state, same⟩ := settle_eq _ _
            rw [same]
            exact frozen.reader
  | ran pump _ nonempty able =>
      obtain ⟨c, member⟩ := List.exists_mem_of_ne_nil _ nonempty
      have passed := able c member
      simp [canHandlePlainRecvDataBatch, isClosed] at passed
  | skipped => exact ⟨isClosed, rfl, rfl⟩
  | polled active | pollFailed active | driven _ active | driveFailed active | closeRefused _ _ active
  | closing _ _ active => exact absurd isClosed active
  | driveSynced =>
      rw [syncWsOpenState_eq, if_neg (calm rfl)]
      exact ⟨isClosed, rfl, rfl⟩
  | sent _ isOpen =>
      rw [isClosed] at isOpen
      simp at isOpen

end Closed

/-! ## The count of active connections -/

namespace Pool

/-- The slots that hold a connection which is not closed. -/
def activeSlots (pool : Pool) : Nat := pool.conns.countP fun slot => slot.any connIsActive

/-- Putting a connection into a slot or taking one out changes the number by what the slot
held and holds. -/
theorem activeSlots_set {pool : Pool} {i : Nat} (inside : i < pool.conns.length)
    (slot : Option ConnectionState) :
    (pool.conns.set i slot).countP (fun slot => slot.any connIsActive) =
      pool.activeSlots - ((pool.connAt i).any connIsActive).toNat + (slot.any connIsActive).toNat := by
  have held : pool.connAt i = pool.conns[i] := by simp [connAt, List.getElem?_eq_getElem inside]
  rw [List.countP_set inside, held, activeSlots]
  cases (pool.conns[i]).any connIsActive <;> cases slot.any connIsActive <;> simp

theorem activeSlots_pos {pool : Pool} {i : Nat} {conn : ConnectionState}
    (found : pool.connAt i = some conn) (active : connIsActive conn = true) :
    0 < pool.activeSlots := by
  have inside := connAt_lt found
  have held : pool.conns[i] = some conn := by
    simpa [connAt, List.getElem?_eq_getElem inside] using found
  refine List.countP_pos_iff.mpr ⟨some conn, held ▸ List.getElem_mem inside, ?_⟩
  simp [active]

theorem activeSlots_stocked (pool : Pool) (slot fresh : Bool) :
    (pool.stocked slot fresh).activeSlots = pool.activeSlots := by
  cases slot <;> simp [activeSlots, stocked]

end Pool

section Count

variable [AcceptDigest] {sys sys' : System} {label : PoolLabel}
  {out : List (ConnHandle × SinkItem)}

omit [AcceptDigest] in
theorem System.calm_of_synced {holds : ConnectionState → Bool} {i : Nat} {conn : ConnectionState}
    (calm : ((sys.synced label).bind sys.pool.connAt).any holds = false)
    (synced : sys.synced label = some i) (found : sys.pool.connAt i = some conn) :
    holds conn = false := by
  simpa [synced, found] using calm

/-- A closed connection that no step revives stays closed. -/
theorem System.count_change (counted : sys.pool.activeCount = sys.pool.activeSlots)
    (calm : sys.revives label = false) (change : Change sys label sys' out) :
    sys'.pool.activeCount = sys'.pool.activeSlots := by
  cases change with
  | kernel => exact counted
  | @step _ i conn conn' _ _ _ _ _ _ _ found _ _ _ following stepped =>
      have stays : Pool.connIsActive conn = false → Pool.connIsActive conn' = false := by
        intro inactive
        have closed := (System.inactive_iff conn).mp inactive
        refine (System.inactive_iff conn').mpr (stepped.closed closed ?_).1
        intro syncing
        exact ConnectionState.not_revivable
          (System.calm_of_synced calm (following syncing) found) closed
      have slots := Pool.activeSlots_set (Pool.connAt_lt found) (some conn')
      simp only [found, Option.any_some] at slots
      show sys.pool.activeCount - (Pool.connIsActive conn && !Pool.connIsActive conn').toNat = _
      rw [counted]
      refine Eq.trans ?_ slots.symm
      cases active : Pool.connIsActive conn with
      | false => simp [stays active]
      | true =>
          have positive := Pool.activeSlots_pos found active
          cases Pool.connIsActive conn' with
          | false => simp
          | true =>
              simp
              omega
  | refused => exact counted.trans (sys.pool.activeSlots_stocked _ _).symm
  | @seated slot fresh conn _ _ _ _ _ _ _ _ _ _ connecting _ _ inside vacant =>
      have slots := Pool.activeSlots_set inside (some conn)
      rw [Pool.connAt_stocked, vacant, Pool.activeSlots_stocked] at slots
      have active : Pool.connIsActive conn = true := by simp [Pool.connIsActive, connecting]
      simp only [Option.any_none, Bool.toNat_false, Nat.sub_zero, Option.any_some, active,
        Bool.toNat_true] at slots
      refine Eq.trans ?_ slots.symm
      exact congrArg (· + 1) counted
  | @retired _ dead _ _ found =>
      have slots := Pool.activeSlots_set (Pool.connAt_lt found) none
      simp only [found, Option.any_some, Option.any_none, Bool.toNat_false, Nat.add_zero] at slots
      refine Eq.trans ?_ slots.symm
      exact congrArg (· - (Pool.connIsActive dead).toNat) counted

/-- `conn_count` is exact in every run that revives no closed connection. -/
theorem connCount_exact
    (reached : poolMachine.Reach (fun sys label => sys.revives label = false) sys) :
    sys.pool.connCount = sys.pool.activeSlots := by
  have start (sys : System) (initial : poolMachine.initial sys) :
      Slots sys.pool sys.handles ∧ sys.pool.activeCount = sys.pool.activeSlots := by
    have first : poolMachine.Reach Machine.always sys := .start initial
    refine ⟨System.slots_reach first, ?_⟩
    obtain ⟨_, _, _, _, rfl⟩ := System.initial_spec initial
    rfl
  have keeps (sys : System) (label : PoolLabel)
      (inv : Slots sys.pool sys.handles ∧ sys.pool.activeCount = sys.pool.activeSlots)
      (calm : sys.revives label = false) :
      Slots (poolMachine.step sys label).1.pool (poolMachine.step sys label).1.handles ∧
        (poolMachine.step sys label).1.pool.activeCount =
          (poolMachine.step sys label).1.pool.activeSlots :=
    ⟨System.slots_move inv.1 (sys.step_move label),
      System.count_change inv.2 calm (System.change inv.1 label)⟩
  exact (reached.invariant start keeps).2

end Count

/-! ## The order of life -/

section Forward

variable [AcceptDigest]

open ConnectionState

/-- Before the Connect completion there is no ring, and the client has read nothing. -/
def ConnectionState.Unconnected (conn : ConnectionState) : Prop :=
  conn.bufRing = none → conn.state ≠ .closed → conn.state = .connecting ∧ conn.ws.Untouched

omit [AcceptDigest] in
/-- The syncs after a step of a connection that was not closed. -/
theorem ConnectionState.syncs_forward {conn conn' : ConnectionState} (active : conn.state ≠ .closed)
    (calm : conn.reopening = false) (moved : conn.state.rank ≤ conn'.state.rank)
    (before : conn.ws.Before conn'.ws) : conn.state.rank ≤ conn'.syncedState.rank := by
  unfold syncedState
  split
  next follows =>
    -- an open client was open or connecting before
    have early : conn.ws.state = .connecting ∨ conn.ws.state = .isOpen := by
      unfold WsClient.Before at before
      rw [follows] at before
      cases state : conn.ws.state <;> simp_all [ConnState.rank]
    have notClosing : conn.state ≠ .closing := by
      intro closing
      rcases early with state | state <;> simp [reopening, closing, state] at calm
    cases state : conn.state <;> simp_all [State.rank]
  next =>
    split
    next =>
      cases state : conn.state <;> simp_all [State.rank]
    next => exact moved

omit [AcceptDigest] in
theorem ConnectionState.settle_forward {α : Type} {conn conn' : ConnectionState}
    (active : conn.state ≠ .closed) (calm : conn.reopening = false)
    (moved : conn.state.rank ≤ conn'.state.rank) (before : conn.ws.Before conn'.ws)
    (result : Except ConnectionError α) :
    conn.state.rank ≤ (conn'.settle result).state.rank := by
  cases result with
  | error e => exact State.rank_le_closed _
  | ok value =>
      simp only [settle, syncs_eq]
      exact syncs_forward active calm moved before

omit [AcceptDigest] in
theorem ConnectionState.onSendCqe_keeps (conn : ConnectionState) (c : Completion) :
    (conn.onSendCqe c).1.state = conn.state ∧ (conn.onSendCqe c).1.ws = conn.ws := by
  unfold onSendCqe
  dsimp only
  split <;> exact ⟨rfl, rfl⟩

/-- What a completion makes of a connection that was not closed. -/
theorem ConnectionState.dispatchCompletion_forward {conn : ConnectionState} {proactor : Proactor}
    (unconnected : conn.canRegister proactor = true → conn.state.rank ≤ State.connecting.rank)
    (pump : PumpKind) (kind : OpKind) (c : Completion) :
    conn.state.rank ≤ (conn.dispatchCompletion proactor pump kind c).2.conn.state.rank ∧
      conn.ws.Before (conn.dispatchCompletion proactor pump kind c).2.conn.ws := by
  have same : conn.state.rank ≤ conn.state.rank ∧ conn.ws.Before conn.ws :=
    ⟨Nat.le_refl _, .refl _⟩
  cases kind with
  | connect =>
      simp only [dispatchCompletion]
      rcases conn.onConnectCqe_cases proactor c with ⟨_, _, _, -, refused⟩ |
        ⟨-, -, -, -, _, stuck⟩ | ⟨-, able, -, conn', result, connected, stands⟩
      · rw [refused]
        exact same
      · rw [stuck]
        exact same
      · rw [stands]
        have before : conn.ws.Before conn.ws.beginHandshake.1 := by
          have advances := conn.beginWsHandshake_advances.ws.before
          unfold beginWsHandshake at advances
          split at advances
          next begun => exact begun ▸ advances
          next begun => exact begun ▸ advances
        refine ⟨?_, ?_⟩
        · show conn.state.rank ≤ conn'.state.rank
          rw [connected.state]
          refine Nat.le_trans (unconnected able) ?_
          unfold connectedState
          split <;> decide
        · rcases connected.reader with reader | reader
          · exact WsClient.before_of_state (by simp [silently, reader])
          · show conn.ws.Before conn'.ws
            have ws : conn'.ws = conn.ws.beginHandshake.1 := congrArg Reader.ws reader
            rw [ws]
            exact before
  | send =>
      have kept := conn.onSendCqe_keeps c
      simp only [dispatchCompletion, silently, kept.1, kept.2]
      exact same
  | recv =>
      simp only [dispatchCompletion, recvHandler_eq]
      have advances := conn.onRecvCqeFor_advances pump c
      exact ⟨advances.state, advances.ws.before⟩
  | close => exact ⟨State.rank_le_closed _, .refl _⟩
  | nop => exact same

theorem ConnStep.forward {proactor proactor' : Proactor} {conn conn' : ConnectionState}
    {syncs : Bool} {consumed : List Completion} {items : List SinkItem}
    (stepped : ConnStep proactor conn syncs consumed proactor' conn' items)
    (active : conn.state ≠ .closed) (calm : syncs = true → conn.reopening = false)
    (unconnected : conn.canRegister proactor = true → conn.state.rank ≤ State.connecting.rank) :
    conn.state.rank ≤ conn'.state.rank := by
  have follows (ws : WsClient) (before : conn.ws.Before ws) (syncing : syncs = true) :
      conn.state.rank ≤ ({ conn with ws } : ConnectionState).syncedState.rank :=
    syncs_forward active (calm syncing) (Nat.le_refl _) before
  cases stepped with
  | submitted sent armed =>
      rw [System.rearm_state armed, System.submit_state sent]
  | sendFailed | rearmFailed | driveFailed => exact State.rank_le_closed _
  | completed pump c handles =>
      cases known : c.userData.kind with
      | none =>
          simp only [handleCompletionFor, known, Prod.mk.injEq] at handles
          obtain ⟨-, rfl⟩ := handles
          exact State.rank_le_closed _
      | some kind =>
          obtain ⟨moved, before⟩ := dispatchCompletion_forward unconnected pump kind c
          simp only [handleCompletionFor, known, if_neg active] at handles
          rw [handles] at moved before
          exact settle_forward active (calm (by simp [known])) moved before _
  | ran pump =>
      have advances := conn.handlePlainRecvDataBatchFor_advances pump consumed
      exact settle_forward active (calm rfl) advances.state advances.ws.before _
  | skipped closed => exact absurd closed active
  | polled _ polls =>
      have before := conn.ws.pollAll_before
      rw [polls] at before
      rw [syncs_eq]
      exact follows _ before rfl
  | pollFailed _ polls =>
      have ending := WsClient.pollAll_error_ending polls
      rw [syncs_eq]
      refine Nat.le_trans (State.rank_le_closed _) (Nat.le_of_eq ?_)
      exact congrArg State.rank (syncedState_closed rfl ending.ne_open).symm
  | driven _ _ polls =>
      have before := conn.ws.pollEvent_before
      rw [polls] at before
      rw [syncs_eq]
      exact follows _ before rfl
  | driveSynced =>
      have synced := follows conn.ws (.refl _) rfl
      rw [syncWsOpenState_eq]
      dsimp only
      split
      next isOpen =>
        simpa [syncedState, isOpen] using synced
      next => exact Nat.le_refl _
  | sent | closeRefused => exact Nat.le_refl _
  | closing =>
      dsimp only
      split
      next isOpen =>
        rw [isOpen]
        decide
      next => exact Nat.le_refl _

omit [AcceptDigest] in
/-- There is nothing to follow while the client is connecting. -/
theorem ConnectionState.syncedState_connecting {conn : ConnectionState}
    (connecting : conn.ws.state = .connecting) : conn.syncedState = conn.state := by
  simp [syncedState, connecting]

/-- A receive without a ring. -/
theorem ConnectionState.onRecvCqeFor_ringless {conn : ConnectionState}
    (ringless : conn.bufRing = none) (pump : PumpKind) (c : Completion) :
    (∃ e, (conn.onRecvCqeFor pump c).result = .error e) ∨
      ((conn.onRecvCqeFor pump c).conn.ws = conn.ws ∧
        (conn.onRecvCqeFor pump c).conn.state = conn.state) := by
  unfold onRecvCqeFor
  dsimp only
  split
  next => exact .inl ⟨_, rfl⟩
  next => exact .inr ⟨rfl, rfl⟩
  next =>
    split
    next => exact .inr ⟨rfl, rfl⟩
    next => exact .inl ⟨_, rfl⟩
  next => exact .inl ⟨_, rfl⟩
  next => exact .inl ⟨_, rfl⟩
  next bid n _ _ _ =>
    have observed : ((conn.disarm c).observeRecv pump).2.ws = conn.ws ∧
        ((conn.disarm c).observeRecv pump).2.state = conn.state ∧
        ((conn.disarm c).observeRecv pump).2.bufRing = none := by
      unfold observeRecv
      split <;> exact ⟨rfl, rfl, ringless⟩
    have still : (((conn.disarm c).observeRecv pump).2.recordRecvData n).bufRing = none :=
      observed.2.2
    refine .inr ?_
    simp only [recvBytes, still]
    exact ⟨observed.1, observed.2.1⟩

/-- Without a ring nothing reaches the client. -/
theorem ConnStep.unconnected {proactor proactor' : Proactor} {conn conn' : ConnectionState}
    {syncs : Bool} {consumed : List Completion} {items : List SinkItem}
    (stepped : ConnStep proactor conn syncs consumed proactor' conn' items)
    (unconnected : conn.Unconnected) (calm : conn.state = .closed → conn'.state = .closed) :
    conn'.Unconnected := by
  intro ringless active'
  have active : conn.state ≠ .closed := fun closed => active' (calm closed)
  have before : conn.bufRing = none := by
    rcases stepped.effect.rings with ⟨-, -, same⟩ | ⟨-, -, -, ⟨-, -, -, same, -⟩ | ⟨ring, present, -⟩⟩
    · rw [ringless] at same
      simpa using same.symm
    · exact same.symm.trans ringless
    · rw [ringless] at present
      simp at present
  obtain ⟨connecting, untouched⟩ := unconnected before active
  have quiet : conn.quiet = true := by simp [ConnectionState.quiet, connecting]
  have unsent : conn.trySubmitSend proactor = (conn, proactor, .ok ()) := by
    simp [trySubmitSend, quiet]
  have unarmed : conn.tryRearmMultishot proactor = (conn, proactor, .ok ()) := by
    simp [tryRearmMultishot, quiet]
  -- a step that keeps the client and the state
  have settled {α : Type} (conn₁ : ConnectionState) (result : Except ConnectionError α)
      (ended : (conn₁.settle result).state ≠ .closed) (ws : conn₁.ws = conn.ws)
      (state : conn₁.state = conn.state) :
      (conn₁.settle result).state = .connecting ∧ (conn₁.settle result).ws.Untouched := by
    cases result with
    | error e => exact absurd rfl ended
    | ok value =>
        simp only [settle, syncs_eq]
        rw [syncedState_connecting (by rw [ws]; exact untouched.state), state, ws]
        exact ⟨connecting, untouched⟩
  cases stepped with
  | submitted sent armed =>
      rw [unsent] at sent
      cases sent
      rw [unarmed] at armed
      cases armed
      exact ⟨connecting, untouched⟩
  | sendFailed | rearmFailed | driveFailed => exact absurd rfl active'
  | completed pump c handles =>
      cases known : c.userData.kind with
      | none =>
          simp only [handleCompletionFor, known, Prod.mk.injEq] at handles
          obtain ⟨-, rfl⟩ := handles
          exact absurd rfl active'
      | some kind =>
          simp only [handleCompletionFor, known, if_neg active] at handles
          cases kind with
          | connect =>
              simp only [dispatchCompletion] at handles
              rcases conn.onConnectCqe_cases proactor c with ⟨_, _, e, -, refused⟩ |
                ⟨-, -, -, -, e, stuck⟩ | ⟨-, -, -, conn₁, result, connected, stands⟩
              · simp only [refused, silently, Prod.mk.injEq] at handles
                obtain ⟨-, rfl⟩ := handles
                exact absurd rfl active'
              · simp only [stuck, silently, Prod.mk.injEq] at handles
                obtain ⟨-, rfl⟩ := handles
                exact absurd rfl active'
              · simp only [stands, silently, Prod.mk.injEq] at handles
                obtain ⟨-, rfl⟩ := handles
                obtain ⟨ring, present, -⟩ := connected.ring
                obtain ⟨state, same⟩ := conn₁.settle_eq (result.map fun () => 0)
                rw [same] at ringless
                rw [present] at ringless
                simp at ringless
          | send =>
              simp only [dispatchCompletion, silently, Prod.mk.injEq] at handles
              obtain ⟨-, rfl⟩ := handles
              have kept := conn.onSendCqe_keeps c
              exact settled _ _ active' kept.2 kept.1
          | recv =>
              simp only [dispatchCompletion, recvHandler_eq, Prod.mk.injEq] at handles
              obtain ⟨-, rfl⟩ := handles
              rcases onRecvCqeFor_ringless before pump c with ⟨e, failed⟩ | ⟨ws, state⟩
              · rw [failed] at active'
                exact absurd rfl active'
              · exact settled _ _ active' ws state
          | close =>
              simp only [dispatchCompletion, Prod.mk.injEq] at handles
              obtain ⟨-, rfl⟩ := handles
              exact absurd (settle_closed rfl (by simp [untouched.state]) _) active'
          | nop =>
              simp only [dispatchCompletion, Prod.mk.injEq] at handles
              obtain ⟨-, rfl⟩ := handles
              exact settled _ _ active' rfl rfl
  | ran pump _ nonempty able =>
      obtain ⟨c, member⟩ := List.exists_mem_of_ne_nil _ nonempty
      have passed := able c member
      simp [canHandlePlainRecvDataBatch, connecting] at passed
  | skipped => exact ⟨connecting, untouched⟩
  | polled _ polls =>
      rw [untouched.pollAll] at polls
      cases polls
      exact settled conn (.ok ()) active' rfl rfl
  | pollFailed _ polls =>
      rw [untouched.pollAll] at polls
      cases polls
  | driven _ _ polls =>
      rw [untouched.pollEvent, Prod.mk.injEq] at polls
      obtain ⟨rfl, -⟩ := polls
      exact settled conn (.ok ()) active' rfl rfl
  | driveSynced =>
      rw [syncWsOpenState_eq, if_neg (by simp [untouched.state])]
      exact ⟨connecting, untouched⟩
  | sent _ isOpen =>
      rw [connecting] at isOpen
      simp at isOpen
  | closeRefused _ _ _ refused =>
      simp only [WsClient.sendClose, untouched.state, reduceCtorEq, or_self, if_false, ne_eq,
        not_false_eq_true, if_true, Prod.mk.injEq] at refused
      rw [← refused.1]
      exact ⟨connecting, untouched⟩
  | closing _ _ _ _ sends =>
      simp [WsClient.sendClose, untouched.state] at sends

variable {sys sys' : System} {label : PoolLabel} {out : List (ConnHandle × SinkItem)}

omit [AcceptDigest] in
/-- A connection that can register a ring has not been connected yet. -/
theorem Ledger.canRegister_early (ledger : Ledger sys) {i : Nat} {conn : ConnectionState}
    (found : sys.pool.connAt i = some conn) (unconnected : conn.Unconnected)
    (active : conn.state ≠ .closed) (able : conn.canRegister sys.pool.proactor = true) :
    conn.state.rank ≤ State.connecting.rank := by
  cases present : conn.bufRing with
  | none => rw [(unconnected present active).1]
  | some ring =>
      obtain ⟨-, group, registered⟩ := ledger.table.standing i conn ring found present
      have free := Proactor.hasRing_of_canRegister able
      rw [Proactor.hasRing_false_iff, ← group] at free
      exact absurd registered (free ring.ringMem)

theorem System.forward_step {i : Nat} {conn conn' : ConnectionState} {syncs : Bool}
    {consumed : List Completion} {proactor : Proactor} {items : List SinkItem}
    (ledger : Ledger sys) (unconnected : conn.Unconnected) (calm : sys.turnsBack label = false)
    (found : sys.pool.connAt i = some conn) (following : syncs = true → sys.synced label = some i)
    (stepped : ConnStep sys.pool.proactor conn syncs consumed proactor conn' items) :
    conn.state.rank ≤ conn'.state.rank ∧
      (conn.state = .closed → conn'.state = .closed ∧ items = []) := by
  have settled (syncing : syncs = true) : conn.revivable = false ∧ conn.reopening = false := by
    simpa using System.calm_of_synced calm (following syncing) found
  by_cases closed : conn.state = .closed
  · obtain ⟨still, silent, -⟩ := stepped.closed closed
      fun syncing => not_revivable (settled syncing).1 closed
    rw [still, closed]
    exact ⟨Nat.le_refl _, fun _ => ⟨rfl, silent⟩⟩
  · exact ⟨stepped.forward closed (fun syncing => (settled syncing).2)
      (ledger.canRegister_early found unconnected closed), fun isClosed => absurd isClosed closed⟩

theorem System.unconnected_change (ledger : Ledger sys)
    (unconnected : ∀ i conn, sys.pool.connAt i = some conn → conn.Unconnected)
    (calm : sys.turnsBack label = false) (change : Change sys label sys' out) :
    ∀ i conn, sys'.pool.connAt i = some conn → conn.Unconnected := by
  intro j now here
  cases change with
  | kernel => exact unconnected j now here
  | step _ _ found _ _ _ following stepped =>
      rcases Pool.connAt_update_cases found here with ⟨rfl, rfl⟩ | ⟨-, there⟩
      · have before := unconnected _ _ found
        exact stepped.unconnected before fun closed =>
          ((System.forward_step ledger before calm found following stepped).2 closed).1
      · exact unconnected j now there
  | refused =>
      rw [Pool.connAt_stocked] at here
      exact unconnected j now here
  | seated _ _ _ _ _ _ _ made connecting _ _ inside =>
      rcases Pool.connAt_occupied_cases inside here with ⟨-, rfl⟩ | ⟨-, there⟩
      · exact fun _ _ => ⟨connecting, WsClient.newClient_untouched made.ws⟩
      · rw [Pool.connAt_stocked] at there
        exact unconnected j now there
  | retired _ _ found => exact unconnected j now (Pool.connAt_vacated_cases found here).2

theorem System.unconnected_reach
    (reached : poolMachine.Reach (fun sys label => sys.turnsBack label = false) sys) :
    ∀ i conn, sys.pool.connAt i = some conn → conn.Unconnected := by
  induction reached with
  | start initial =>
      obtain ⟨_, _, _, _, rfl⟩ := System.initial_spec initial
      simp [Pool.connAt]
  | next label reached calm ih =>
      have ledger := System.ledger_reach reached
      exact System.unconnected_change ledger ih calm (System.change ledger.slots label)

/-- In a run without turning back every step keeps the order of life, and a closed connection
stays closed and silent. -/
theorem states_move_forward
    (reached : poolMachine.Reach (fun sys label => sys.turnsBack label = false) sys)
    (label : PoolLabel) (calm : sys.turnsBack label = false) {i : Nat}
    {conn conn' : ConnectionState} (before : sys.pool.connAt i = some conn)
    (after : (poolMachine.step sys label).1.pool.connAt i = some conn') :
    conn.state.rank ≤ conn'.state.rank ∧
      (conn.state = .closed → conn'.state = .closed ∧
        ∀ item, (ConnHandle.fromConn conn, item) ∉ (poolMachine.step sys label).2) := by
  have ledger := System.ledger_reach reached
  have unconnected := System.unconnected_reach reached
  have untouched (now : ConnectionState) (out : List (ConnHandle × SinkItem))
      (same : sys.pool.connAt i = some now)
      (silent : ∀ item, (ConnHandle.fromConn conn, item) ∉ out) :
      conn.state.rank ≤ now.state.rank ∧ (conn.state = .closed → now.state = .closed ∧
        ∀ item, (ConnHandle.fromConn conn, item) ∉ out) := by
    rw [before, Option.some.injEq] at same
    rw [← same]
    exact ⟨Nat.le_refl _, fun closed => ⟨closed, silent⟩⟩
  have change := System.change ledger.slots label
  generalize poolMachine.step sys label = next at change after ⊢
  obtain ⟨sys', out⟩ := next
  dsimp only at change after ⊢
  cases change with
  | kernel => exact untouched _ [] after (by simp)
  | @step _ j stepping _ _ _ _ _ items _ _ found _ _ _ following stepped =>
      rcases Pool.connAt_update_cases found after with ⟨rfl, rfl⟩ | ⟨other, there⟩
      · rw [before, Option.some.injEq] at found
        subst found
        obtain ⟨moved, silent⟩ :=
          System.forward_step ledger (unconnected _ _ before) calm before following stepped
        exact ⟨moved, fun closed => ⟨(silent closed).1, by simp [(silent closed).2]⟩⟩
      · apply untouched _ _ there
        intro item member
        obtain ⟨_, -, same⟩ := List.mem_map.mp member
        exact other (ledger.slots.handle_unique before found (congrArg Prod.fst same).symm)
  | refused =>
      rw [Pool.connAt_stocked] at after
      exact untouched _ [] after (by simp)
  | seated _ _ _ _ _ _ _ _ _ _ _ inside vacant =>
      rcases Pool.connAt_occupied_cases inside after with ⟨rfl, -⟩ | ⟨-, there⟩
      · rw [vacant] at before
        simp at before
      · rw [Pool.connAt_stocked] at there
        exact untouched _ [] there (by simp)
  | retired _ _ found => exact untouched _ [] (Pool.connAt_vacated_cases found after).2 (by simp)

end Forward

end Lifecycle

/-! ## A closed connection that comes back

The peer closes while the upgrade request is still in flight; when its send completes, the
driver follows the client that is still open. -/

attribute [local instance] Sample.rustls Ws.Sample.digest

def lateSend : List PoolLabel :=
  Sample.upgrade ++ [.post ⟨0, 0, 0, []⟩, .drain, .dispatch .data, .post ⟨0, 4, 0, []⟩, .drain]

theorem closed_connection_reopens :
    let sys := (poolMachine.run (Sample.start 256 fun _ => none) lateSend).1
    let sys' := (poolMachine.step sys (.dispatch .data)).1
    poolMachine.Reach Machine.always sys ∧ sys.pool.state Sample.handle = some .closed ∧
      sys'.pool.state Sample.handle = some .isOpen :=
  ⟨.run_always (.start (Sample.start_initial _ (by decide))) lateSend, by decide +kernel⟩

theorem states_move_forward_connected :
    let sys := (poolMachine.run (Sample.start 256 fun _ => none) (Sample.upgrade.take 4)).1
    ∃ conn conn', sys.pool.connAt 0 = some conn ∧
      (poolMachine.step sys (.dispatch .data)).1.pool.connAt 0 = some conn' ∧
      conn.state.rank ≤ conn'.state.rank := by
  obtain ⟨conn, before⟩ := Option.isSome_iff_exists.mp (show (Pool.connAt (poolMachine.run
    (Sample.start 256 fun _ => none) (Sample.upgrade.take 4)).1.pool 0).isSome by decide +kernel)
  obtain ⟨conn', after⟩ := Option.isSome_iff_exists.mp (show (Pool.connAt (poolMachine.step
    (poolMachine.run (Sample.start 256 fun _ => none) (Sample.upgrade.take 4)).1
      (.dispatch .data)).1.pool 0).isSome by decide +kernel)
  exact ⟨conn, conn', before, after, (states_move_forward (.run (.start (Sample.start_initial _
    (by decide))) _ (by decide +kernel)) _ (by decide +kernel) before after).1⟩

theorem connCount_misses_reopened :
    let sys := (poolMachine.run (Sample.start 256 fun _ => none) (lateSend ++ [.dispatch .data])).1
    poolMachine.Reach Machine.always sys ∧ sys.pool.connCount = 0 ∧ sys.pool.activeSlots = 1 :=
  ⟨.run_always (.start (Sample.start_initial _ (by decide))) _, by decide +kernel⟩

theorem connCount_exact_connected :
    let sys := (poolMachine.run (Sample.start 256 fun _ => none) (Sample.upgrade.take 5)).1
    sys.pool.state Sample.handle = some .wsHandshake ∧
      sys.pool.connCount = sys.pool.activeSlots :=
  ⟨by decide +kernel, connCount_exact (.run (.start (Sample.start_initial _ (by decide))) _
    (by decide +kernel))⟩

end Talaris
