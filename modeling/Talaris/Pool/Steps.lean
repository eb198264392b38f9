import Talaris.Connection.Laws
import Talaris.Pool.System

/-!
# What one step can do

Every step of the pool machine is one of four moves: the kernel's side changes, one
connection takes a step in its slot, a connection is opened, or one leaves its slot.
`System.step_move` is the only place that looks into the functions of the pool for this;
the invariants are proved from the moves.
-/

namespace Talaris

open Talaris.Basis
open Talaris.Ws

section Connections

variable [Rustls] [AcceptDigest]

/-- What `finish_conn_result` makes of a connection. -/
def ConnectionState.settle {α : Type} (conn : ConnectionState) (result : Except ConnectionError α) :
    ConnectionState :=
  match result with
  | .ok _ => conn.syncWsOpenState.syncWsCloseState
  | .error _ => { conn with state := .closed }

/-- A step of one connection: whether its driver state follows the WebSocket state, the
completions it takes, and the sink calls. -/
inductive ConnStep (proactor : Proactor) (conn : ConnectionState) :
    Bool → List Completion → Proactor → ConnectionState → List SinkItem → Prop where
  | submitted {conn₁ conn₂ : ConnectionState} {proactor₁ proactor₂ : Proactor} :
      conn.trySubmitSend proactor = (conn₁, proactor₁, .ok ()) →
      conn₁.tryRearmMultishot proactor₁ = (conn₂, proactor₂, .ok ()) →
      ConnStep proactor conn false [] proactor₂ conn₂ []
  | sendFailed {conn₁ : ConnectionState} {proactor₁ : Proactor} {e : ConnectionError} :
      conn.trySubmitSend proactor = (conn₁, proactor₁, .error e) →
      ConnStep proactor conn false [] proactor₁ { conn₁ with state := .closed } []
  | rearmFailed {conn₁ conn₂ : ConnectionState} {proactor₁ proactor₂ : Proactor}
      {e : ConnectionError} :
      conn.trySubmitSend proactor = (conn₁, proactor₁, .ok ()) →
      conn₁.tryRearmMultishot proactor₁ = (conn₂, proactor₂, .error e) →
      ConnStep proactor conn false [] proactor₂ { conn₂ with state := .closed } []
  | completed {proactor₁ : Proactor} {handled : Handled} (pump : PumpKind) (c : Completion) :
      conn.handleCompletionFor proactor pump c = (proactor₁, handled) →
      ConnStep proactor conn c.userData.kind.isSome [c] proactor₁
        (handled.conn.settle handled.result) handled.out
  | ran (pump : PumpKind) (completions : List Completion) :
      completions ≠ [] →
      (∀ c ∈ completions, conn.canHandlePlainRecvDataBatch c = true) →
      ConnStep proactor conn true completions proactor
        ((conn.handlePlainRecvDataBatchFor pump completions).conn.settle
          (conn.handlePlainRecvDataBatchFor pump completions).result)
        (conn.handlePlainRecvDataBatchFor pump completions).out
  | skipped : conn.state = .closed →
      ConnStep proactor conn false [] proactor conn.clearWsIngressDirty []
  | polled {ws : WsClient} {events : List Event} : conn.state ≠ .closed →
      conn.ws.pollAll = (ws, events, none) →
      ConnStep proactor conn true [] proactor
        { conn with ws }.syncWsOpenState.syncWsCloseState.clearWsIngressDirty (events.map .event)
  | pollFailed {ws : WsClient} {events : List Event} {e : WsError} : conn.state ≠ .closed →
      conn.ws.pollAll = (ws, events, some e) →
      ConnStep proactor conn true [] proactor
        { conn with ws, state := .closed }.syncWsOpenState.syncWsCloseState.clearWsIngressDirty
        (events.map .event)
  | driven {ws : WsClient} {event : Option Event} :
      conn.state ≠ .isOpen → conn.state ≠ .closed →
      conn.ws.pollEvent = (ws, event.map .ok) →
      ConnStep proactor conn true [] proactor
        { conn with ws }.syncWsOpenState.syncWsCloseState []
  | driveFailed {ws : WsClient} {e : WsError} : conn.state ≠ .closed →
      conn.ws.pollEvent = (ws, some (.error e)) →
      ConnStep proactor conn true [] proactor { conn with ws, state := .closed } []
  | driveSynced : ConnStep proactor conn true [] proactor conn.syncWsOpenState []
  | sent (what : SendCall) : conn.state = .isOpen →
      ConnStep proactor conn false [] proactor { conn with ws := (what.run conn.ws).1 } []
  | closeRefused {ws : WsClient} {e : WsError} (code : Nat) (reason : Bytes) :
      conn.state ≠ .closed → conn.ws.sendClose code reason = (ws, .error e) →
      ConnStep proactor conn false [] proactor { conn with ws } []
  | closing {ws : WsClient} (code : Nat) (reason : Bytes) :
      conn.state ≠ .closed → conn.state ≠ .closing →
      conn.ws.sendClose code reason = (ws, .ok ()) →
      ConnStep proactor conn false [] proactor
        { conn with ws, state := if conn.state = .isOpen then .closing else conn.state } []

end Connections

/-! ## Moves -/

section Moves

variable [Rustls]

namespace Pool

/-- One connection steps from `conn` to `conn'`; it leaves the count when it closes. -/
def update (pool : Pool) (i : Nat) (conn conn' : ConnectionState) (proactor : Proactor)
    (buf : List Completion) : Pool :=
  { pool with
    proactor
    conns := pool.conns.set i (some conn')
    activeCount := pool.activeCount - (connIsActive conn && !connIsActive conn').toNat
    completionsBuf := buf }

theorem connAt_lt {pool : Pool} {i : Nat} {conn : ConnectionState}
    (found : pool.connAt i = some conn) : i < pool.conns.length := by
  unfold connAt at found
  by_contra outside
  rw [List.getElem?_eq_none (Nat.le_of_not_lt outside)] at found
  simp at found

theorem connAt_set {pool : Pool} {i : Nat} (inside : i < pool.conns.length)
    (slot : Option ConnectionState) (j : Nat) :
    (pool.conns.set i slot)[j]?.join = if j = i then slot else pool.connAt j := by
  unfold connAt
  by_cases same : j = i
  · subst same
    simp [inside]
  · rw [List.getElem?_set_ne (Ne.symm same), if_neg same]

theorem connAt_update {pool : Pool} {i : Nat} {conn conn' : ConnectionState}
    (found : pool.connAt i = some conn) (proactor : Proactor) (buf : List Completion) (j : Nat) :
    (pool.update i conn conn' proactor buf).connAt j =
      if j = i then some conn' else pool.connAt j :=
  connAt_set (connAt_lt found) (some conn') j

theorem connAt_update_cases {pool : Pool} {i j : Nat} {conn conn' now : ConnectionState}
    {proactor : Proactor} {buf : List Completion} (found : pool.connAt i = some conn)
    (here : (pool.update i conn conn' proactor buf).connAt j = some now) :
    (j = i ∧ now = conn') ∨ (j ≠ i ∧ pool.connAt j = some now) := by
  rw [connAt_update found] at here
  split at here
  next same => exact .inl ⟨same, (Option.some.inj here).symm⟩
  next other => exact .inr ⟨other, here⟩

/-- A step that leaves the connection as it is. -/
theorem update_self {pool : Pool} {i : Nat} {conn : ConnectionState}
    (found : pool.connAt i = some conn) :
    pool.update i conn conn pool.proactor pool.completionsBuf = pool := by
  have same : pool.conns.set i (some conn) = pool.conns := by
    apply List.ext_getElem?
    intro j
    by_cases same : i = j
    · subst same
      have inside := connAt_lt found
      rw [connAt, List.getElem?_eq_getElem inside] at found
      rw [List.getElem?_set_self inside, List.getElem?_eq_getElem inside]
      exact congrArg some found.symm
    · rw [List.getElem?_set_ne same]
  cases active : connIsActive conn <;> simp [update, same, active]

end Pool

/-- Moves of the kernel and of the completion buffer. -/
inductive KernelMove (pool : Pool) :
    PoolLabel → Proactor → List Completion → Prop where
  | same (label : PoolLabel) : KernelMove pool label pool.proactor pool.completionsBuf
  | posted (post : Proactor.Post) :
      KernelMove pool (.post post) (pool.proactor.post post) pool.completionsBuf
  | spurious (c : Completion) :
      KernelMove pool (.spurious c) (pool.proactor.postSpurious c) pool.completionsBuf
  | entered : KernelMove pool .enter pool.proactor.submit.1 pool.completionsBuf
  | drained : pool.completionsBuf = [] →
      KernelMove pool .drain pool.proactor.drainCompletions.1 pool.proactor.drainCompletions.2
  | dropped (pump : PumpKind) (c : Completion) (rest : List Completion) :
      pool.completionsBuf = c :: rest → PumpCall.connForCompletion pool.conns c = none →
      KernelMove pool (.dispatch pump) pool.proactor rest

/-- The slot whose connection a step lets follow its WebSocket state. -/
def System.synced (sys : System) : PoolLabel → Option Nat
  | .dispatch _ =>
      match sys.pool.completionsBuf with
      | [] => none
      | c :: _ =>
          if c.userData.kind.isSome then
            (PumpCall.connForCompletion sys.pool.conns c).map Prod.fst
          else none
  | .poll i => if (sys.pool.connAt i).any Pool.connIsActive then some i else none
  | .driveTarget | .driveVerdict => if sys.roundOver then sys.driving else none
  | _ => none

/-- The connection that a step takes out of its slot. -/
def System.retiring (sys : System) : PoolLabel → Option ConnectionState
  | .remove h =>
      if sys.idle then
        (sys.pool.connAt h.asU32).filter fun conn => h.generation = conn.identity.generation
      else none
  | .abandon => if sys.pool.completionsBuf.isEmpty then sys.driving.bind sys.pool.connAt else none
  | _ => none

/-- What the history gains by a step of a connection. -/
def recorded (conn : ConnectionState) (consumed : List Completion) (items : List SinkItem) :
    List HistoryEntry :=
  (if consumed.isEmpty then []
    else [.received (ConnHandle.fromConn conn) (consumed.flatMap Completion.received)]) ++
    items.map (.delivered (ConnHandle.fromConn conn))

/-! ## The functions of the pool as moves -/

namespace PumpCall

/-- Failing closes the connection, and the count follows if the connection was active at any
point of the step. -/
theorem failConnAndAccount_pool (call : PumpCall) (i : Nat) {conn : ConnectionState}
    (failed : ConnectionState) (e : ConnectionError)
    (stays : Pool.connIsActive conn = false → Pool.connIsActive failed = false) :
    (call.failConnAndAccount i failed e (Pool.connIsActive conn)).pool =
      call.pool.update i conn { failed with state := .closed } call.pool.proactor
        call.pool.completionsBuf := by
  have closed : Pool.connIsActive { failed with state := .closed } = false := by
    simp [Pool.connIsActive]
  cases active : Pool.connIsActive conn with
  | true => simp [failConnAndAccount, Pool.update, Pool.setConn, active, closed]
  | false => simp [failConnAndAccount, Pool.update, Pool.setConn, active, closed, stays active]

theorem failConnAndAccount_closes (call : PumpCall) {i : Nat}
    (inside : i < call.pool.conns.length) (conn : ConnectionState) (e : ConnectionError)
    (wasActive : Bool) :
    (call.failConnAndAccount i conn e wasActive).pool.connAt i =
      some { conn with state := .closed } := by
  show (call.pool.conns.set i (some { conn with state := .closed }))[i]?.join = _
  rw [Pool.connAt_set inside, if_pos rfl]

theorem accountClosedTransition_eq (activeCount : Nat) (wasActive : Bool)
    (conn : ConnectionState) :
    accountClosedTransition activeCount wasActive conn =
      activeCount - (wasActive && !Pool.connIsActive conn).toNat := by
  unfold accountClosedTransition
  cases wasActive && !Pool.connIsActive conn <;> rfl

theorem finishConnResult_pool (call : PumpCall) (i : Nat) {conn : ConnectionState}
    (handled : ConnectionState) (result : Except ConnectionError Nat)
    (stays : Pool.connIsActive conn = false → Pool.connIsActive handled = false) :
    (call.finishConnResult i handled result (Pool.connIsActive conn)).pool =
      call.pool.update i conn (handled.settle result) call.pool.proactor
        call.pool.completionsBuf := by
  cases result with
  | error e => exact call.failConnAndAccount_pool i handled e stays
  | ok n =>
      simp only [finishConnResult, accountClosedTransition_eq]
      rfl

theorem finishConnResult_out (call : PumpCall) (i : Nat) (conn : ConnectionState)
    (result : Except ConnectionError Nat) (wasActive : Bool) :
    (call.finishConnResult i conn result wasActive).out = call.out := by
  cases result <;> rfl

end PumpCall

variable [AcceptDigest]

inductive Move (sys : System) :
    PoolLabel → System → List (ConnHandle × SinkItem) → Prop where
  | kernel {label : PoolLabel} {proactor : Proactor} {buf : List Completion}
      (firstErr : Option ConnectionError) (driving : Option Nat) :
      KernelMove sys.pool label proactor buf →
      (driving = sys.driving ∨ driving = none) →
      Move sys label
        ⟨{ sys.pool with proactor, completionsBuf := buf }, firstErr, driving, sys.history⟩ []
  | step {label : PoolLabel} {i : Nat} {conn conn' : ConnectionState} {syncs : Bool}
      {consumed buf : List Completion} {proactor : Proactor} {items : List SinkItem}
      (firstErr : Option ConnectionError) (driving : Option Nat) :
      sys.pool.connAt i = some conn →
      sys.pool.completionsBuf = consumed ++ buf →
      (∀ c ∈ consumed, PumpCall.connForCompletion sys.pool.conns c = some (i, conn)) →
      (consumed ≠ [] → ∃ pump, label = .dispatch pump) →
      (syncs = true → sys.synced label = some i) →
      ConnStep sys.pool.proactor conn syncs consumed proactor conn' items →
      (driving = sys.driving ∨ driving = none) →
      Move sys label
        ⟨sys.pool.update i conn conn' proactor buf, firstErr, driving,
          sys.history ++ recorded conn consumed items⟩
        (items.map fun item => (ConnHandle.fromConn conn, item))
  | opened (cfg : ConnectionConfig) (addr : SocketAddr) (opening : Opening) (blocking : Bool) :
      sys.idle = true →
      Move sys (.connect cfg addr opening blocking) (sys.openConn cfg addr opening blocking) []
  | retired {label : PoolLabel} {connId : Nat} {dead : ConnectionState} (driving : Option Nat) :
      sys.pool.completionsBuf = [] →
      sys.pool.connAt connId = some dead → sys.retiring label = some dead →
      (driving = sys.driving ∨ driving = none) →
      Move sys label
        { sys with pool := (sys.pool.retireSlot connId dead.identity.generation).1, driving } []

namespace System

variable {sys : System}

omit [AcceptDigest] in
/-- A step of the system that goes through a pump call. -/
theorem through_eq (sys : System) (f : PumpCall → PumpCall) :
    sys.through f =
      (⟨(f ⟨sys.pool, sys.firstErr, []⟩).pool, (f ⟨sys.pool, sys.firstErr, []⟩).firstErr,
        sys.driving, sys.history ++ (f ⟨sys.pool, sys.firstErr, []⟩).out.map fun entry =>
          .delivered entry.1 entry.2⟩, (f ⟨sys.pool, sys.firstErr, []⟩).out) := rfl

/-- A step of one connection through a pump call is a move. -/
theorem move_through {label : PoolLabel} {i : Nat} {conn conn' : ConnectionState} {syncs : Bool}
    {buf : List Completion} {proactor : Proactor} {items : List SinkItem} {f : PumpCall → PumpCall}
    (found : sys.pool.connAt i = some conn)
    (following : syncs = true → sys.synced label = some i)
    (stepped : ConnStep sys.pool.proactor conn syncs [] proactor conn' items)
    (kept : buf = sys.pool.completionsBuf)
    (pool : (f ⟨sys.pool, sys.firstErr, []⟩).pool = sys.pool.update i conn conn' proactor buf)
    (out : (f ⟨sys.pool, sys.firstErr, []⟩).out =
      items.map fun item => (ConnHandle.fromConn conn, item)) :
    Move sys label (sys.through f).1 (sys.through f).2 := by
  subst kept
  have moved := Move.step (f ⟨sys.pool, sys.firstErr, []⟩).firstErr sys.driving found
    (List.nil_append _).symm (by simp) (by simp) following stepped (.inl rfl)
  rw [through_eq, pool, out]
  simpa [recorded, Function.comp_def] using moved

theorem move_same (sys : System) (label : PoolLabel) (firstErr : Option ConnectionError) :
    Move sys label { sys with firstErr } [] :=
  .kernel firstErr sys.driving (.same label) (.inl rfl)

omit [AcceptDigest] in
theorem active_iff (conn : ConnectionState) :
    Pool.connIsActive conn = true ↔ conn.state ≠ .closed := by
  simp [Pool.connIsActive]

omit [AcceptDigest] in
theorem inactive_iff (conn : ConnectionState) :
    Pool.connIsActive conn = false ↔ conn.state = .closed := by
  simp [Pool.connIsActive]

omit [AcceptDigest] in
/-- The submit phase does not touch the driver's state. -/
theorem submit_state {conn conn₁ : ConnectionState} {proactor proactor₁ : Proactor}
    {result : Except ConnectionError Unit}
    (sent : conn.trySubmitSend proactor = (conn₁, proactor₁, result)) :
    conn₁.state = conn.state := by
  rcases conn.trySubmitSend_cases proactor with same | ⟨-, -, conn₂, _, staged, same⟩ |
    ⟨-, -, conn₂, staged, same⟩
  · rw [same] at sent
    cases sent
    rfl
  · rw [same] at sent
    cases sent
    exact staged.state
  · rw [same] at sent
    cases sent
    exact staged.state

omit [AcceptDigest] in
theorem rearm_state {conn conn₁ : ConnectionState} {proactor proactor₁ : Proactor}
    {result : Except ConnectionError Unit}
    (armed : conn.tryRearmMultishot proactor = (conn₁, proactor₁, result)) :
    conn₁.state = conn.state := by
  rcases conn.tryRearmMultishot_cases proactor with ⟨_, same⟩ | ⟨-, ring, -, same⟩
  · rw [same] at armed
    cases armed
    rfl
  · rw [same] at armed
    cases armed
    rfl

theorem submit_move (i : Nat) :
    Move sys (.submit i) (sys.act (.submit i)).1 (sys.act (.submit i)).2 := by
  simp only [act]
  cases found : sys.pool.connAt i with
  | none =>
      have idle : PumpCall.submitConnAt ⟨sys.pool, sys.firstErr, []⟩ i =
          ⟨sys.pool, sys.firstErr, []⟩ := by
        simp [PumpCall.submitConnAt, found]
      rw [through_eq, idle]
      simpa using sys.move_same (.submit i) sys.firstErr
  | some conn =>
      rcases sent : conn.trySubmitSend sys.pool.proactor with ⟨conn₁, proactor₁, e | ⟨⟩⟩
      · have same : Pool.connIsActive conn₁ = Pool.connIsActive conn := by
          simp only [Pool.connIsActive, submit_state sent]
        apply move_through found (by simp) (.sendFailed sent) rfl
        · simp only [PumpCall.submitConnAt, found, sent]
          exact PumpCall.failConnAndAccount_pool _ i conn₁ e same.trans
        · simp [PumpCall.submitConnAt, found, sent, PumpCall.failConnAndAccount]
      · rcases armed : conn₁.tryRearmMultishot proactor₁ with ⟨conn₂, proactor₂, e | ⟨⟩⟩
        · have same : Pool.connIsActive conn₂ = Pool.connIsActive conn := by
            simp only [Pool.connIsActive, rearm_state armed, submit_state sent]
          apply move_through found (by simp) (.rearmFailed sent armed) rfl
          · simp only [PumpCall.submitConnAt, found, sent, armed]
            exact PumpCall.failConnAndAccount_pool _ i conn₂ e same.trans
          · simp [PumpCall.submitConnAt, found, sent, armed, PumpCall.failConnAndAccount]
        · have same : Pool.connIsActive conn₂ = Pool.connIsActive conn := by
            simp only [Pool.connIsActive, rearm_state armed, submit_state sent]
          apply move_through found (by simp) (.submitted sent armed) rfl
          · simp [PumpCall.submitConnAt, found, sent, armed, Pool.update, Pool.setConn, same]
          · simp [PumpCall.submitConnAt, found, sent, armed]

theorem poll_move (i : Nat) :
    Move sys (.poll i) (sys.act (.poll i)).1 (sys.act (.poll i)).2 := by
  simp only [act]
  cases found : sys.pool.connAt i with
  | none =>
      have idle : PumpCall.pollConnAt ⟨sys.pool, sys.firstErr, []⟩ i =
          ⟨sys.pool, sys.firstErr, []⟩ := by
        simp [PumpCall.pollConnAt, found]
      rw [through_eq, idle]
      simpa using sys.move_same (.poll i) sys.firstErr
  | some conn =>
      by_cases closed : conn.state = .closed
      · apply move_through found (by simp) (.skipped closed) rfl
        · simp [PumpCall.pollConnAt, found, closed, Pool.update, Pool.setConn, Pool.connIsActive]
        · simp [PumpCall.pollConnAt, found, closed]
      · have active : Pool.connIsActive conn = true := by simp [Pool.connIsActive, closed]
        have following : sys.synced (.poll i) = some i := by
          simp [System.synced, found, active]
        rcases polled : conn.ws.pollAll with ⟨ws, events, _ | e⟩
        · have still : Pool.connIsActive
              { conn with ws }.syncWsOpenState.syncWsCloseState.clearWsIngressDirty = true := by
            rw [ConnectionState.syncs_eq, active_iff]
            exact ConnectionState.syncedState_ne_closed closed
          apply move_through found (fun _ => following) (.polled closed polled) rfl
          · simp [PumpCall.pollConnAt, found, closed, polled, PumpCall.emit, Pool.update,
              Pool.setConn, still]
          · simp [PumpCall.pollConnAt, found, closed, polled, PumpCall.emit]
        · have failed : Pool.connIsActive
              { conn with ws, state := .closed }.syncWsOpenState.syncWsCloseState.clearWsIngressDirty =
                false := by
            rw [ConnectionState.syncs_eq, inactive_iff]
            exact ConnectionState.syncedState_closed rfl
              (WsClient.pollAll_error_ending polled).ne_open
          have was : Pool.connIsActive { conn with ws } = true := active
          apply move_through found (fun _ => following) (.pollFailed closed polled) rfl
          · simp [PumpCall.pollConnAt, found, closed, polled, PumpCall.emit, Pool.update,
              Pool.setConn, PumpCall.failConnAndAccount, failed, active, was]
          · simp [PumpCall.pollConnAt, found, closed, polled, PumpCall.emit,
              PumpCall.failConnAndAccount]

omit [AcceptDigest] in
theorem connForCompletion_spec {pool : Pool} {c : Completion} {i : Nat} {conn : ConnectionState}
    (routed : PumpCall.connForCompletion pool.conns c = some (i, conn)) :
    pool.connAt i = some conn ∧ conn.token = c.userData.token ∧ i = tokenConnId conn.token := by
  unfold PumpCall.connForCompletion at routed
  dsimp only at routed
  split at routed
  next => simp at routed
  next found₁ found =>
    split at routed
    next same =>
      simp only [Option.some.injEq, Prod.mk.injEq] at routed
      obtain ⟨rfl, rfl⟩ := routed
      exact ⟨found, same, by rw [same]⟩
    next => simp at routed

omit [AcceptDigest] in
theorem connForCompletion_congr {pool : Pool} {c c' : Completion}
    (same : c'.userData.token = c.userData.token) :
    PumpCall.connForCompletion pool.conns c' = PumpCall.connForCompletion pool.conns c := by
  unfold PumpCall.connForCompletion
  rw [same]

/-- A step of one connection on completions it takes is a move. -/
theorem move_dispatch (pump : PumpKind) {i : Nat} {conn conn' : ConnectionState} {syncs : Bool}
    {c : Completion} {consumed buf : List Completion} {proactor : Proactor}
    {items : List SinkItem} (firstErr : Option ConnectionError)
    (split : sys.pool.completionsBuf = c :: consumed ++ buf)
    (routed : PumpCall.connForCompletion sys.pool.conns c = some (i, conn))
    (together : ∀ next ∈ consumed, next.userData.token = c.userData.token)
    (following : syncs = true → c.userData.kind.isSome = true)
    (stepped : ConnStep sys.pool.proactor conn syncs (c :: consumed) proactor conn' items) :
    Move sys (.dispatch pump)
      ⟨sys.pool.update i conn conn' proactor buf, firstErr, sys.driving,
        sys.history ++ recorded conn (c :: consumed) items⟩
      (items.map fun item => (ConnHandle.fromConn conn, item)) := by
  apply Move.step firstErr sys.driving (connForCompletion_spec routed).1 split
  · intro next member
    rcases List.mem_cons.mp member with rfl | later
    · exact routed
    · rw [connForCompletion_congr (together next later)]
      exact routed
  · exact fun _ => ⟨pump, rfl⟩
  · intro syncing
    simp [System.synced, split, following syncing, routed]
  · exact stepped
  · exact .inl rfl

omit [AcceptDigest] in
theorem runOf_spec {pump : PumpKind} {conn : ConnectionState} {c : Completion}
    {rest after : List Completion} (run : PumpCall.runOf pump conn c rest = some after) :
    rest = after ++ rest.drop after.length ∧
      (∀ next ∈ c :: after, conn.canHandlePlainRecvDataBatch next = true) ∧
      ∀ next ∈ after, next.userData.token = c.userData.token := by
  unfold PumpCall.runOf at run
  split at run
  next able =>
    simp only [Bool.and_eq_true] at able
    dsimp only at run
    split at run
    next =>
      simp only [Option.some.injEq] at run
      subst run
      have held (next : Completion) (member : next ∈ PumpCall.runAfter conn c.userData.token rest) :
          next.userData.token = c.userData.token ∧
            conn.canHandlePlainRecvDataBatch next = true := by
        have passes := List.mem_takeWhile_imp member
        simpa using passes
      refine ⟨?_, ?_, fun next member => (held next member).1⟩
      · have leading : PumpCall.runAfter conn c.userData.token rest <+: rest :=
          List.takeWhile_prefix _
        exact (List.prefix_iff_eq_append.mp leading).symm
      · intro next member
        rcases List.mem_cons.mp member with rfl | later
        · exact able.2
        · exact (held next later).2
    next => simp at run
  next => simp at run

/-- The call after a completion or a run was handled, as a move. -/
theorem move_handled (pump : PumpKind) {i : Nat} {conn : ConnectionState} {syncs : Bool}
    {c : Completion} {consumed buf : List Completion} {proactor : Proactor} {handled : Handled}
    (split : sys.pool.completionsBuf = c :: consumed ++ buf)
    (routed : PumpCall.connForCompletion sys.pool.conns c = some (i, conn))
    (together : ∀ next ∈ consumed, next.userData.token = c.userData.token)
    (following : syncs = true → c.userData.kind.isSome = true)
    (stays : Pool.connIsActive conn = false → Pool.connIsActive handled.conn = false)
    (stepped : ConnStep sys.pool.proactor conn syncs (c :: consumed) proactor
      (handled.conn.settle handled.result) handled.out)
    {call : PumpCall}
    (called : call = (PumpCall.emit
      ⟨{ sys.pool with completionsBuf := buf, proactor }, sys.firstErr, []⟩ conn
        handled.out).finishConnResult i handled.conn handled.result (Pool.connIsActive conn)) :
    Move sys (.dispatch pump)
      ⟨call.pool, call.firstErr, sys.driving,
        sys.history ++
          [.received (ConnHandle.fromConn conn) ((c :: consumed).flatMap Completion.received)] ++
          call.out.map fun entry => .delivered entry.1 entry.2⟩ call.out := by
  have pool : call.pool =
      sys.pool.update i conn (handled.conn.settle handled.result) proactor buf := by
    rw [called, PumpCall.finishConnResult_pool _ i handled.conn handled.result stays]
    rfl
  have out : call.out = handled.out.map fun item => (ConnHandle.fromConn conn, item) := by
    rw [called, PumpCall.finishConnResult_out]
    simp [PumpCall.emit]
  have moved := move_dispatch pump call.firstErr split routed together following stepped
  rw [pool, out]
  simpa [recorded, Function.comp_def] using moved

theorem dispatch_move (pump : PumpKind) :
    Move sys (.dispatch pump) (sys.act (.dispatch pump)).1 (sys.act (.dispatch pump)).2 := by
  simp only [act, through_eq]
  cases buffered : sys.pool.completionsBuf with
  | nil =>
      simpa [PumpCall.dispatchNext, System.incoming, buffered]
        using sys.move_same (.dispatch pump) sys.firstErr
  | cons c rest =>
      cases routed : PumpCall.connForCompletion sys.pool.conns c with
      | none =>
          have moved : Move sys (.dispatch pump) _ [] := .kernel sys.firstErr sys.driving
            (.dropped pump c rest buffered routed) (.inl rfl)
          simpa [PumpCall.dispatchNext, System.incoming, buffered, routed] using moved
      | some slot =>
          obtain ⟨i, conn⟩ := slot
          cases run : PumpCall.runOf pump conn c rest with
          | some after =>
              obtain ⟨split, able, together⟩ := runOf_spec run
              have open' : conn.state = .isOpen := by
                have first := able c List.mem_cons_self
                simp only [ConnectionState.canHandlePlainRecvDataBatch, Bool.and_eq_true,
                  decide_eq_true_eq] at first
                exact first.1.1.1.2
              have kind : c.userData.kind.isSome = true := by
                have first := able c List.mem_cons_self
                simp only [ConnectionState.canHandlePlainRecvDataBatch, Bool.and_eq_true,
                  decide_eq_true_eq] at first
                rw [first.1.1.2]
                rfl
              have stepped : ConnStep sys.pool.proactor conn true (c :: after) _ _ _ :=
                .ran pump (c :: after) (by simp) able
              have taken : sys.pool.completionsBuf = c :: after ++ rest.drop after.length := by
                rw [buffered, List.cons_append, ← split]
              have moved := move_handled pump taken routed together (fun _ => kind)
                (by simp [Pool.connIsActive, open']) stepped rfl
              simpa [PumpCall.dispatchNext, System.incoming, buffered, routed, run] using moved
          | none =>
              rcases handles : conn.handleCompletionFor sys.pool.proactor pump c with
                ⟨proactor, handled⟩
              have stays : Pool.connIsActive conn = false →
                  Pool.connIsActive handled.conn = false := by
                intro inactive
                have closed := (inactive_iff conn).mp inactive
                have frozen := (conn.handleCompletionFor_closed closed sys.pool.proactor pump c).2.2
                rw [handles] at frozen
                exact (inactive_iff handled.conn).mpr (frozen.state.trans closed)
              have stepped := ConnStep.completed pump c handles
              have taken : sys.pool.completionsBuf = c :: [] ++ rest := buffered
              have moved := move_handled pump taken routed (by simp) (fun h => h) stays
                stepped rfl
              simpa [PumpCall.dispatchNext, System.incoming, buffered, routed, run, handles]
                using moved

/-- A step of one connection outside the pumps is a move. -/
theorem move_slot {label : PoolLabel} {i : Nat} {conn conn' : ConnectionState} {syncs : Bool}
    {pool : Pool} (driving : Option Nat)
    (found : sys.pool.connAt i = some conn)
    (following : syncs = true → sys.synced label = some i)
    (stepped : ConnStep sys.pool.proactor conn syncs [] sys.pool.proactor conn' [])
    (driven : driving = sys.driving ∨ driving = none)
    (updated : pool = sys.pool.update i conn conn' sys.pool.proactor sys.pool.completionsBuf) :
    Move sys label { sys with pool, driving } [] := by
  have moved : Move sys label _ _ := .step sys.firstErr driving found (List.nil_append _).symm
    (by simp) (by simp) following stepped driven
  rw [updated]
  simpa [recorded] using moved

omit [AcceptDigest] in
theorem update_of_active {pool : Pool} {i : Nat} {conn conn' : ConnectionState}
    (active : Pool.connIsActive conn' = true) :
    pool.setConn i conn' =
      pool.update i conn conn' pool.proactor pool.completionsBuf := by
  simp [Pool.update, Pool.setConn, active]

theorem driveTarget_move (ended : sys.roundOver = true) :
    Move sys .driveTarget (sys.act .driveTarget).1 (sys.act .driveTarget).2 := by
  cases driven : sys.driving with
  | none =>
      have same : sys.act .driveTarget = (sys, []) := by simp [act, driven]
      rw [same]
      exact sys.move_same .driveTarget sys.firstErr
  | some i =>
      have acted : sys.act .driveTarget =
          sys.quietly (sys.pool.driveTargetHandshakeEvent i).1 := by
        simp [act, driven]
      rw [acted]
      simp only [quietly, Pool.driveTargetHandshakeEvent]
      have following : sys.synced .driveTarget = some i := by simp [System.synced, ended, driven]
      cases found : sys.pool.connAt i with
      | none => exact sys.move_same .driveTarget sys.firstErr
      | some conn =>
          dsimp only
          split
          next => exact sys.move_same .driveTarget sys.firstErr
          next ready =>
            simp only [not_or] at ready
            split
            next ws e polled =>
              apply move_slot sys.driving found (fun _ => following)
                (.driveFailed ready.2 polled) (.inl rfl)
              exact PumpCall.failConnAndAccount_pool _ i { conn with ws } (.ws e) (fun h => h)
            next ws result notError polled =>
              obtain ⟨event, ok⟩ : ∃ event : Option Event, result = event.map .ok := by
                cases result with
                | none => exact ⟨none, rfl⟩
                | some answer =>
                    cases answer with
                    | ok event => exact ⟨some event, rfl⟩
                    | error e => exact absurd rfl (notError e)
              rw [ok] at polled
              apply move_slot sys.driving found (fun _ => following)
                (.driven ready.1 ready.2 polled) (.inl rfl)
              simp only [PumpCall.accountClosedTransition_eq]
              rfl

omit [AcceptDigest] in
/-- Following the WebSocket state alone never closes a connection. -/
theorem syncWsOpenState_update {pool : Pool} {i : Nat} {conn : ConnectionState} :
    pool.setConn i conn.syncWsOpenState =
      pool.update i conn conn.syncWsOpenState pool.proactor pool.completionsBuf := by
  have stays : (Pool.connIsActive conn && !Pool.connIsActive conn.syncWsOpenState) = false := by
    rw [ConnectionState.syncWsOpenState_eq]
    simp only [Pool.connIsActive]
    split <;> simp
  simp [Pool.update, Pool.setConn, stays]

theorem driveVerdict_move (ended : sys.roundOver = true) :
    Move sys .driveVerdict (sys.act .driveVerdict).1 (sys.act .driveVerdict).2 := by
  cases driven : sys.driving with
  | none =>
      have same : sys.act .driveVerdict = (sys, []) := by simp [act, driven]
      rw [same]
      exact sys.move_same .driveVerdict sys.firstErr
  | some i =>
      have acted : sys.act .driveVerdict = (sys.endDrive i, []) := by simp [act, driven]
      rw [acted]
      simp only [endDrive, Pool.driveVerdict]
      have following : sys.synced .driveVerdict = some i := by simp [System.synced, ended, driven]
      cases found : sys.pool.connAt i with
      | none => exact sys.move_same .driveVerdict sys.firstErr
      | some conn =>
          have moved (driving : Option Nat) (kept : driving = sys.driving ∨ driving = none) :=
            move_slot driving found (fun _ => following) .driveSynced kept syncWsOpenState_update
          dsimp only
          split
          next pool verdict =>
            simp only [Prod.mk.injEq] at verdict
            rw [← verdict.1]
            exact moved none (.inr rfl)
          next pool verdict notOpen same =>
            simp only [Prod.mk.injEq] at same
            rw [← same.1]
            exact moved sys.driving (.inl rfl)

omit [AcceptDigest] in
theorem connMut_spec {pool : Pool} {h : ConnHandle} {conn : ConnectionState}
    (found : pool.connMut h = .ok conn) : pool.connAt h.asU32 = some conn ∧ conn.token = h.raw := by
  unfold Pool.connMut Pool.lookup at found
  split at found
  next conn₁ looked =>
    simp only [Except.ok.injEq] at found
    subst found
    simpa [Option.filter_eq_some_iff] using looked
  next => simp at found

theorem send_move (h : ConnHandle) (what : SendCall) :
    Move sys (.send h what) (sys.act (.send h what)).1 (sys.act (.send h what)).2 := by
  simp only [act, quietly, Pool.sendWith]
  split
  next => exact sys.move_same _ sys.firstErr
  next conn looked =>
    obtain ⟨found, -⟩ := connMut_spec looked
    split
    next => exact sys.move_same _ sys.firstErr
    next asserted =>
      have isOpen : conn.state = .isOpen := by
        unfold ConnectionState.assertOpen at asserted
        split at asserted
        next isOpen => exact isOpen
        next => simp at asserted
      have moved : Move sys (.send h what) _ _ := move_slot sys.driving found (by simp)
        (.sent what isOpen) (.inl rfl)
        (update_of_active (by simp [Pool.connIsActive, isOpen]))
      split
      next ws e sent =>
        rw [sent] at moved
        exact moved
      next ws sent =>
        rw [sent] at moved
        exact moved

theorem close_move (h : ConnHandle) (code : Nat) (reason : Bytes) :
    Move sys (.close h code reason) (sys.act (.close h code reason)).1
      (sys.act (.close h code reason)).2 := by
  simp only [act, quietly, Pool.initiateClose]
  split
  next => exact sys.move_same _ sys.firstErr
  next conn looked =>
    obtain ⟨found, -⟩ := connMut_spec looked
    split
    next => exact sys.move_same _ sys.firstErr
    next ready =>
      simp only [not_or] at ready
      split
      next ws e refused =>
        exact move_slot sys.driving found (by simp) (.closeRefused code reason ready.1 refused)
          (.inl rfl) (update_of_active (by simp [Pool.connIsActive, ready.1]))
      next ws sent =>
        apply move_slot sys.driving found (by simp) (.closing code reason ready.1 ready.2 sent)
          (.inl rfl)
        apply update_of_active
        simp only [Pool.connIsActive]
        split
        next => rfl
        next => simp [ready.1]

theorem remove_move (h : ConnHandle) (idle : sys.idle = true) :
    Move sys (.remove h) (sys.act (.remove h)).1 (sys.act (.remove h)).2 := by
  have same : (sys.pool.removeConn h).1 = (sys.pool.retireSlot h.asU32 h.generation).1 := by
    unfold Pool.removeConn
    split <;> simp_all
  have empty : sys.pool.completionsBuf = [] := by
    simp only [System.idle, Bool.and_eq_true, List.isEmpty_iff] at idle
    exact idle.1
  simp only [act, quietly, same]
  cases found : sys.pool.connAt h.asU32 with
  | none =>
      simpa [Pool.retireSlot, found] using sys.move_same (.remove h) sys.firstErr
  | some dead =>
      by_cases matching : h.generation = dead.identity.generation
      · rw [matching]
        apply Move.retired sys.driving empty found
        · simp [System.retiring, idle, found, matching]
        · exact .inl rfl
      · simpa [Pool.retireSlot, found, matching] using sys.move_same (.remove h) sys.firstErr

theorem abandon_move (empty : sys.pool.completionsBuf.isEmpty = true) :
    Move sys .abandon (sys.act .abandon).1 (sys.act .abandon).2 := by
  cases driven : sys.driving with
  | none =>
      have same : sys.act .abandon = (sys, []) := by simp [act, driven]
      rw [same]
      exact sys.move_same .abandon sys.firstErr
  | some i =>
      cases found : sys.pool.connAt i with
      | none =>
          have moved : Move sys .abandon _ [] :=
            .kernel sys.firstErr none (.same .abandon) (.inr rfl)
          simpa [act, driven, found] using moved
      | some dead =>
          simp only [act, driven, found]
          apply Move.retired none (List.isEmpty_iff.mp empty) found
          · simp [System.retiring, empty, driven, found]
          · exact .inr rfl

/-- Every step is a move. -/
theorem step_move (sys : System) (label : PoolLabel) :
    Move sys label (poolMachine.step sys label).1 (poolMachine.step sys label).2 := by
  simp only [poolMachine]
  split
  next enabled =>
    cases label with
    | post post => exact .kernel sys.firstErr sys.driving (.posted post) (.inl rfl)
    | spurious c => exact .kernel sys.firstErr sys.driving (.spurious c) (.inl rfl)
    | begin => exact sys.move_same .begin none
    | enter => exact .kernel sys.firstErr sys.driving .entered (.inl rfl)
    | drain =>
        have moved : Move sys .drain _ [] := .kernel sys.firstErr sys.driving
          (.drained (List.isEmpty_iff.mp enabled)) (.inl rfl)
        simpa [act, through_eq, PumpCall.drainCompletions] using moved
    | connect cfg addr opening blocking => exact .opened cfg addr opening blocking enabled
    | remove h => exact remove_move h enabled
    | send h what => exact send_move h what
    | close h code reason => exact close_move h code reason
    | submit i => exact submit_move i
    | dispatch pump => exact dispatch_move pump
    | poll i => exact poll_move i
    | driveTarget => exact driveTarget_move enabled
    | driveVerdict => exact driveVerdict_move enabled
    | abandon => exact abandon_move enabled
  next => exact sys.move_same label sys.firstErr

end System

end Moves

end Talaris
