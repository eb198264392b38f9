import Talaris.Connection.Receiving
import Talaris.Pool.Lifecycle

/-!
# What one step does with a connection

`System.step_move` says what a step can do to the tables of the pool.  The results about what the
connections themselves read and send need to know as well which call of the API or which phase of
a pump it was: a step is the visit of one connection by one label (`Visit`), opens a connection,
or leaves every connection as it is (`System.step_outcome`).
-/

namespace Talaris

open Talaris.Basis
open Talaris.Ws

section Visits

variable [Rustls]

/-- A step of the connection in one slot, with the completions it takes and its sink calls. -/
structure Turn (sys sys' : System) (i : Nat) (conn conn' : ConnectionState)
    (consumed : List Completion) (items : List SinkItem) : Prop where
  found : sys.pool.connAt i = some conn
  conns : sys'.pool.conns = sys.pool.conns.set i (some conn')
  endpoint : conn'.toEndpoint = conn.toEndpoint
  driving : sys'.driving = sys.driving ∨ sys'.driving = none
  history : sys'.history = sys.history ++ recorded conn consumed items

variable {sys sys' : System}

namespace Turn

variable {i : Nat} {conn conn' : ConnectionState} {consumed : List Completion}
  {items : List SinkItem}

theorem here (turn : Turn sys sys' i conn conn' consumed items) (j : Nat) :
    sys'.pool.connAt j = if j = i then some conn' else sys.pool.connAt j := by
  show sys'.pool.conns[j]?.join = _
  rw [turn.conns]
  exact Pool.connAt_set (Pool.connAt_lt turn.found) (some conn') j

/-- The connection in a slot afterwards: the one visited, or one of those before. -/
theorem cases (turn : Turn sys sys' i conn conn' consumed items) {j : Nat} {now : ConnectionState}
    (here : sys'.pool.connAt j = some now) :
    (j = i ∧ now = conn') ∨ (j ≠ i ∧ sys.pool.connAt j = some now) := by
  rw [turn.here] at here
  split at here
  next slot => exact .inl ⟨slot, (Option.some.inj here).symm⟩
  next slot => exact .inr ⟨slot, here⟩

theorem token (turn : Turn sys sys' i conn conn' consumed items) : conn'.token = conn.token := by
  show conn'.toEndpoint.identity.token = conn.toEndpoint.identity.token
  rw [turn.endpoint]

theorem handle (turn : Turn sys sys' i conn conn' consumed items) :
    ConnHandle.fromConn conn' = ConnHandle.fromConn conn :=
  congrArg ConnHandle.mk turn.token

theorem handles (turn : Turn sys sys' i conn conn' consumed items) :
    sys'.handles = sys.handles := by
  rw [System.handles, turn.history, handles_recorded]
  rfl

/-- A connection that is driven open later is driven open before. -/
theorem idle (turn : Turn sys sys' i conn conn' consumed items) {j : Nat}
    (free : sys.driving ≠ some j) : sys'.driving ≠ some j := by
  rcases turn.driving with kept | ended
  · rwa [kept]
  · simp [ended]

end Turn

variable [AcceptDigest]

/-- The visit of the connection in slot `i`: by the label, with the completions it takes, what
becomes of the connection, and the sink calls. -/
inductive Visit (sys : System) (i : Nat) (conn : ConnectionState) :
    PoolLabel → List Completion → ConnectionState → List SinkItem → Prop where
  | submitted {conn₁ conn₂ : ConnectionState} {proactor₁ proactor₂ : Proactor} :
      conn.trySubmitSend sys.pool.proactor = (conn₁, proactor₁, .ok ()) →
      conn₁.tryRearmMultishot proactor₁ = (conn₂, proactor₂, .ok ()) →
      Visit sys i conn (.submit i) [] conn₂ []
  | sendFailed {conn₁ : ConnectionState} {proactor₁ : Proactor} {e : ConnectionError} :
      conn.trySubmitSend sys.pool.proactor = (conn₁, proactor₁, .error e) →
      Visit sys i conn (.submit i) [] { conn₁ with state := .closed } []
  | rearmFailed {conn₁ conn₂ : ConnectionState} {proactor₁ proactor₂ : Proactor}
      {e : ConnectionError} :
      conn.trySubmitSend sys.pool.proactor = (conn₁, proactor₁, .ok ()) →
      conn₁.tryRearmMultishot proactor₁ = (conn₂, proactor₂, .error e) →
      Visit sys i conn (.submit i) [] { conn₂ with state := .closed } []
  | completed {proactor₁ : Proactor} {handled : Handled} (pump : PumpKind) (c : Completion)
      (rest : List Completion) : sys.pool.completionsBuf = c :: rest →
      PumpCall.connForCompletion sys.pool.conns c = some (i, conn) →
      conn.handleCompletionFor sys.pool.proactor pump c = (proactor₁, handled) →
      Visit sys i conn (.dispatch pump) [c] (handled.conn.settle handled.result) handled.out
  | ran (pump : PumpKind) (completions : List Completion) : pump.isData = true →
      completions ≠ [] → (∀ c ∈ completions, conn.canHandlePlainRecvDataBatch c = true) →
      Visit sys i conn (.dispatch pump) completions
        ((conn.handlePlainRecvDataBatchFor pump completions).conn.settle
          (conn.handlePlainRecvDataBatchFor pump completions).result)
        (conn.handlePlainRecvDataBatchFor pump completions).out
  | skipped : conn.state = .closed → Visit sys i conn (.poll i) [] conn.clearWsIngressDirty []
  | polled {ws : WsClient} {events : List Event} : conn.state ≠ .closed →
      conn.ws.pollAll = (ws, events, none) →
      Visit sys i conn (.poll i) []
        { conn with ws }.syncWsOpenState.syncWsCloseState.clearWsIngressDirty (events.map .event)
  | pollFailed {ws : WsClient} {events : List Event} {e : WsError} : conn.state ≠ .closed →
      conn.ws.pollAll = (ws, events, some e) →
      Visit sys i conn (.poll i) []
        { conn with ws, state := .closed }.syncWsOpenState.syncWsCloseState.clearWsIngressDirty
        (events.map .event)
  | driven {ws : WsClient} {event : Option Event} : sys.driving = some i →
      sys.roundOver = true → conn.state ≠ .isOpen → conn.state ≠ .closed →
      conn.ws.pollEvent = (ws, event.map .ok) →
      Visit sys i conn .driveTarget [] { conn with ws }.syncWsOpenState.syncWsCloseState []
  | driveFailed {ws : WsClient} {e : WsError} : conn.state ≠ .closed →
      conn.ws.pollEvent = (ws, some (.error e)) →
      Visit sys i conn .driveTarget [] { conn with ws, state := .closed } []
  | driveSynced : sys.driving = some i → sys.roundOver = true →
      Visit sys i conn .driveVerdict [] conn.syncWsOpenState []
  | sent (h : ConnHandle) (what : SendCall) : i = h.asU32 → conn.token = h.raw →
      conn.state = .isOpen →
      (what.run conn.ws).2.toOption = (sys.pool.sendWith h what.run).2.toOption →
      Visit sys i conn (.send h what) [] { conn with ws := (what.run conn.ws).1 } []
  | closeRefused (h : ConnHandle) {ws : WsClient} {e : WsError} (code : Nat) (reason : Bytes) :
      conn.state ≠ .closed → conn.ws.sendClose code reason = (ws, .error e) →
      Visit sys i conn (.close h code reason) [] { conn with ws } []
  | closing (h : ConnHandle) {ws : WsClient} (code : Nat) (reason : Bytes) :
      sys.idle = true → conn.state ≠ .closed → conn.state ≠ .closing →
      conn.ws.sendClose code reason = (ws, .ok ()) →
      Visit sys i conn (.close h code reason) []
        { conn with ws, state := if conn.state = .isOpen then .closing else conn.state } []

/-- What a step of the machine comes to. -/
inductive Outcome (sys : System) (label : PoolLabel) (sys' : System) : Prop where
  | same : (∀ j now, sys'.pool.connAt j = some now → sys.pool.connAt j = some now) →
      sys'.history = sys.history → (sys'.driving = sys.driving ∨ sys'.driving = none) →
      (∀ h what, label = .send h what → sys.enabled label = true →
        (sys.pool.sendWith h what.run).2.toOption = none) →
      Outcome sys label sys'
  | opened (cfg : ConnectionConfig) (addr : SocketAddr) (opening : Opening) (blocking : Bool) :
      label = .connect cfg addr opening blocking →
      sys' = sys.openConn cfg addr opening blocking → Outcome sys label sys'
  | visited {i : Nat} {conn conn' : ConnectionState} {consumed : List Completion}
      {items : List SinkItem} :
      Turn sys sys' i conn conn' consumed items → Visit sys i conn label consumed conn' items →
      Outcome sys label sys'

namespace System

/-- Nothing happens to a connection. -/
theorem outcome_same {label : PoolLabel}
    (conns : ∀ j now, sys'.pool.connAt j = some now → sys.pool.connAt j = some now)
    (history : sys'.history = sys.history)
    (driving : sys'.driving = sys.driving ∨ sys'.driving = none)
    (other : ∀ h what, label ≠ .send h what) : Outcome sys label sys' :=
  .same conns history driving fun h what is => absurd is (other h what)

omit [AcceptDigest] in
theorem turn_through {i : Nat} {conn conn' : ConnectionState} {items : List SinkItem}
    {f : PumpCall → PumpCall} (found : sys.pool.connAt i = some conn)
    (conns : (f ⟨sys.pool, sys.firstErr, []⟩).pool.conns = sys.pool.conns.set i (some conn'))
    (endpoint : conn'.toEndpoint = conn.toEndpoint)
    (out : (f ⟨sys.pool, sys.firstErr, []⟩).out =
      items.map fun item => (ConnHandle.fromConn conn, item)) :
    Turn sys (sys.through f).1 i conn conn' [] items := by
  refine ⟨found, conns, endpoint, .inl rfl, ?_⟩
  simp [through_eq, out, recorded, Function.comp_def]

omit [AcceptDigest] in
theorem turn_silent {i : Nat} {conn conn' : ConnectionState} {f : PumpCall → PumpCall}
    (found : sys.pool.connAt i = some conn)
    (conns : (f ⟨sys.pool, sys.firstErr, []⟩).pool.conns = sys.pool.conns.set i (some conn'))
    (endpoint : conn'.toEndpoint = conn.toEndpoint)
    (out : (f ⟨sys.pool, sys.firstErr, []⟩).out = []) :
    Turn sys (sys.through f).1 i conn conn' [] [] := by
  have none : ([] : List SinkItem).map (fun item => (ConnHandle.fromConn conn, item)) = [] := rfl
  rw [← none] at out
  exact turn_through found conns endpoint out

omit [AcceptDigest] in
/-- A step of one connection outside the pumps. -/
theorem turn_slot {i : Nat} {conn conn' : ConnectionState} {pool : Pool} {driving : Option Nat}
    (found : sys.pool.connAt i = some conn)
    (conns : pool.conns = sys.pool.conns.set i (some conn'))
    (endpoint : conn'.toEndpoint = conn.toEndpoint)
    (driven : driving = sys.driving ∨ driving = none) :
    Turn sys { sys with pool, driving } i conn conn' [] [] :=
  ⟨found, conns, endpoint, driven, (List.append_nil _).symm⟩

/-- The submit phase of a connection. -/
theorem submit_turn {i : Nat} {conn : ConnectionState} (found : sys.pool.connAt i = some conn) :
    ∃ conn', Turn sys (sys.act (.submit i)).1 i conn conn' [] [] ∧
      Visit sys i conn (.submit i) [] conn' [] := by
  simp only [act]
  rcases sent : conn.trySubmitSend sys.pool.proactor with ⟨conn₁, proactor₁, e | ⟨⟩⟩
  · refine ⟨_, turn_silent found ?_ ?_ ?_, .sendFailed sent⟩
    · simp only [PumpCall.submitConnAt, found, sent]
      rfl
    · exact (ConnStep.sendFailed sent).effect.endpoint
    · simp [PumpCall.submitConnAt, found, sent, PumpCall.failConnAndAccount]
  · rcases armed : conn₁.tryRearmMultishot proactor₁ with ⟨conn₂, proactor₂, e | ⟨⟩⟩
    · refine ⟨_, turn_silent found ?_ ?_ ?_, .rearmFailed sent armed⟩
      · simp only [PumpCall.submitConnAt, found, sent, armed]
        rfl
      · exact (ConnStep.rearmFailed sent armed).effect.endpoint
      · simp [PumpCall.submitConnAt, found, sent, armed, PumpCall.failConnAndAccount]
    · refine ⟨_, turn_silent found ?_ ?_ ?_, .submitted sent armed⟩
      · simp only [PumpCall.submitConnAt, found, sent, armed]
        rfl
      · exact (ConnStep.submitted sent armed).effect.endpoint
      · simp [PumpCall.submitConnAt, found, sent, armed]

/-- The submit phase of a slot. -/
theorem submit_outcome (i : Nat) : Outcome sys (.submit i) (sys.act (.submit i)).1 := by
  cases found : sys.pool.connAt i with
  | none =>
      have idle : PumpCall.submitConnAt ⟨sys.pool, sys.firstErr, []⟩ i =
          ⟨sys.pool, sys.firstErr, []⟩ := by
        simp [PumpCall.submitConnAt, found]
      simp only [act]
      rw [through_eq, idle]
      exact outcome_same (fun _ _ here => here) (by simp) (.inl rfl) (by simp)
  | some conn =>
      obtain ⟨conn', turn, visit⟩ := submit_turn found
      exact .visited turn visit

/-- The polling of a slot. -/
theorem poll_outcome (i : Nat) : Outcome sys (.poll i) (sys.act (.poll i)).1 := by
  simp only [act]
  cases found : sys.pool.connAt i with
  | none =>
      have idle : PumpCall.pollConnAt ⟨sys.pool, sys.firstErr, []⟩ i =
          ⟨sys.pool, sys.firstErr, []⟩ := by
        simp [PumpCall.pollConnAt, found]
      rw [through_eq, idle]
      exact outcome_same (fun _ _ here => here) (by simp) (.inl rfl) (by simp)
  | some conn =>
      by_cases closed : conn.state = .closed
      · refine .visited (turn_silent found ?_ ?_ ?_) (.skipped closed)
        · simp only [PumpCall.pollConnAt, found, closed, if_true]
          rfl
        · rfl
        · simp [PumpCall.pollConnAt, found, closed]
      · rcases polled : conn.ws.pollAll with ⟨ws, events, _ | e⟩
        · refine .visited (turn_through found ?_ ?_ ?_) (.polled closed polled)
          · simp only [PumpCall.pollConnAt, found, closed, polled, if_false]
            rfl
          · rw [ConnectionState.syncs_eq]
            rfl
          · simp [PumpCall.pollConnAt, found, closed, polled, PumpCall.emit]
        · refine .visited (turn_through found ?_ ?_ ?_) (.pollFailed closed polled)
          · simp [PumpCall.pollConnAt, found, closed, polled, PumpCall.failConnAndAccount,
              Pool.setConn, PumpCall.emit]
          · rw [ConnectionState.syncs_eq]
            rfl
          · simp [PumpCall.pollConnAt, found, closed, polled, PumpCall.emit,
              PumpCall.failConnAndAccount]

omit [AcceptDigest] in
theorem finishConnResult_conns (call : PumpCall) (i : Nat) (handled : ConnectionState)
    (result : Except ConnectionError Nat) (wasActive : Bool) :
    (call.finishConnResult i handled result wasActive).pool.conns =
      call.pool.conns.set i (some (handled.settle result)) := by
  cases result <;> rfl

omit [AcceptDigest] in
theorem settle_endpoint {α : Type} (conn : ConnectionState) (result : Except ConnectionError α) :
    (conn.settle result).toEndpoint = conn.toEndpoint := by
  obtain ⟨state, same⟩ := conn.settle_eq result
  rw [same]

/-- The next completion or run. -/
theorem dispatch_outcome (pump : PumpKind) :
    Outcome sys (.dispatch pump) (sys.act (.dispatch pump)).1 := by
  simp only [act, through_eq]
  cases buffered : sys.pool.completionsBuf with
  | nil =>
      refine outcome_same (fun j now here => ?_) ?_ (.inl rfl) (by simp)
      · simpa [PumpCall.dispatchNext, buffered] using here
      · simp [PumpCall.dispatchNext, incoming, buffered]
  | cons c rest =>
      cases routed : PumpCall.connForCompletion sys.pool.conns c with
      | none =>
          refine outcome_same (fun j now here => ?_) ?_ (.inl rfl) (by simp)
          · simp only [PumpCall.dispatchNext, buffered, routed] at here
            exact here
          · simp [PumpCall.dispatchNext, incoming, buffered, routed]
      | some slot =>
          obtain ⟨i, conn⟩ := slot
          obtain ⟨found, -⟩ := connForCompletion_spec routed
          cases run : PumpCall.runOf pump conn c rest with
          | some after =>
              obtain ⟨-, able, -⟩ := runOf_spec run
              have data : pump.isData = true := by
                cases is : pump.isData with
                | true => rfl
                | false => simp [PumpCall.runOf, is] at run
              refine .visited ⟨found, ?_, ?_, .inl rfl, ?_⟩ (.ran pump (c :: after) data (by simp) able)
              · simp only [PumpCall.dispatchNext, buffered, routed, run,
                  ConnectionState.batchHandler_eq]
                exact finishConnResult_conns ..
              · rw [settle_endpoint]
                exact (conn.handlePlainRecvDataBatchFor_advances pump (c :: after)).endpoint
              · simp [PumpCall.dispatchNext, incoming, buffered, routed, run, recorded,
                  PumpCall.finishConnResult_out, PumpCall.emit, Function.comp_def]
          | none =>
              rcases handles : conn.handleCompletionFor sys.pool.proactor pump c with
                ⟨proactor, handled⟩
              refine .visited ⟨found, ?_, ?_, .inl rfl, ?_⟩
                (.completed pump c rest buffered routed handles)
              · simp only [PumpCall.dispatchNext, buffered, routed, run,
                  ConnectionState.completionHandler_eq, handles]
                exact finishConnResult_conns ..
              · exact (ConnStep.completed pump c handles).effect.endpoint
              · simp [PumpCall.dispatchNext, incoming, buffered, routed, run, recorded, handles,
                  PumpCall.finishConnResult_out, PumpCall.emit, Function.comp_def]

/-- One event of the connection that is driven open. -/
theorem driveTarget_outcome (ended : sys.roundOver = true) :
    Outcome sys .driveTarget (sys.act .driveTarget).1 := by
  cases driven : sys.driving with
  | none =>
      have same : sys.act .driveTarget = (sys, []) := by simp [act, driven]
      rw [same]
      exact outcome_same (fun _ _ here => here) rfl (.inl rfl) (by simp)
  | some i =>
      have acted : sys.act .driveTarget =
          sys.quietly (sys.pool.driveTargetHandshakeEvent i).1 := by
        simp [act, driven]
      rw [acted]
      simp only [quietly, Pool.driveTargetHandshakeEvent]
      cases found : sys.pool.connAt i with
      | none => exact outcome_same (fun _ _ here => here) rfl (.inl rfl) (by simp)
      | some conn =>
          dsimp only
          split
          next => exact outcome_same (fun _ _ here => here) rfl (.inl rfl) (by simp)
          next ready =>
            simp only [not_or] at ready
            split
            next ws e polled =>
              refine .visited (turn_slot found ?_ ?_ (.inl rfl)) (.driveFailed ready.2 polled)
              · rfl
              · rfl
            next ws result notError polled =>
              obtain ⟨event, ok⟩ : ∃ event : Option Event, result = event.map .ok := by
                cases result with
                | none => exact ⟨none, rfl⟩
                | some answer =>
                    cases answer with
                    | ok event => exact ⟨some event, rfl⟩
                    | error e => exact absurd rfl (notError e)
              rw [ok] at polled
              refine .visited (turn_slot found ?_ ?_ (.inl rfl))
                (.driven driven ended ready.1 ready.2 polled)
              · rfl
              · rw [ConnectionState.syncs_eq]

/-- The verdict of a round. -/
theorem driveVerdict_outcome (ended : sys.roundOver = true) :
    Outcome sys .driveVerdict (sys.act .driveVerdict).1 := by
  cases driven : sys.driving with
  | none =>
      have same : sys.act .driveVerdict = (sys, []) := by simp [act, driven]
      rw [same]
      exact outcome_same (fun _ _ here => here) rfl (.inl rfl) (by simp)
  | some i =>
      have acted : sys.act .driveVerdict = (sys.endDrive i, []) := by simp [act, driven]
      rw [acted]
      simp only [endDrive, Pool.driveVerdict]
      cases found : sys.pool.connAt i with
      | none => exact outcome_same (fun _ _ here => here) rfl (.inl rfl) (by simp)
      | some conn =>
          have endpoint : conn.syncWsOpenState.toEndpoint = conn.toEndpoint := by
            rw [ConnectionState.syncWsOpenState_eq]
          have next (driving : Option Nat) (kept : driving = sys.driving ∨ driving = none) :
              Outcome sys .driveVerdict
                { sys with pool := sys.pool.setConn i conn.syncWsOpenState, driving } :=
            .visited (turn_slot found rfl endpoint kept) (.driveSynced driven ended)
          dsimp only
          split
          next pool verdict =>
            simp only [Prod.mk.injEq] at verdict
            rw [← verdict.1]
            exact next none (.inr rfl)
          next pool verdict notOpen same =>
            simp only [Prod.mk.injEq] at same
            rw [← same.1]
            exact next sys.driving (.inl rfl)

/-- A send of the user. -/
theorem send_outcome (h : ConnHandle) (what : SendCall) :
    Outcome sys (.send h what) (sys.act (.send h what)).1 := by
  have refused (none : (sys.pool.sendWith h what.run).2.toOption = none) :
      Outcome sys (.send h what) sys :=
    .same (fun _ _ here => here) rfl (.inl rfl) fun h' what' is _ => by
      cases is
      exact none
  simp only [act, quietly]
  generalize called : sys.pool.sendWith h what.run = sent
  have looked := called
  unfold Pool.sendWith at looked
  split at looked
  next e missing =>
    subst looked
    exact refused (by rw [called]; rfl)
  next conn present =>
    obtain ⟨found, token⟩ := connMut_spec present
    split at looked
    next e asserted =>
      subst looked
      exact refused (by rw [called]; rfl)
    next asserted =>
      have isOpen : conn.state = .isOpen := by
        unfold ConnectionState.assertOpen at asserted
        split at asserted
        next isOpen => exact isOpen
        next => simp at asserted
      have turn : Turn sys
          { sys with pool := sys.pool.setConn h.asU32 { conn with ws := (what.run conn.ws).1 } }
          h.asU32 conn { conn with ws := (what.run conn.ws).1 } [] [] :=
        turn_slot found rfl rfl (.inl rfl)
      split at looked
      next ws e ran =>
        subst looked
        have ran' : what.run conn.ws = (ws, .error e) := ran
        have visit : Visit sys h.asU32 conn (.send h what) [] _ [] :=
          .sent h what rfl token isOpen (by rw [called, ran']; rfl)
        rw [ran'] at turn visit
        exact .visited turn visit
      next ws ran =>
        subst looked
        have ran' : what.run conn.ws = (ws, .ok ()) := ran
        have visit : Visit sys h.asU32 conn (.send h what) [] _ [] :=
          .sent h what rfl token isOpen (by rw [called, ran']; rfl)
        rw [ran'] at turn visit
        exact .visited turn visit

/-- A close of the user. -/
theorem close_outcome (h : ConnHandle) (code : Nat) (reason : Bytes) (idle : sys.idle = true) :
    Outcome sys (.close h code reason) (sys.act (.close h code reason)).1 := by
  simp only [act, quietly, Pool.initiateClose]
  split
  next => exact outcome_same (fun _ _ here => here) rfl (.inl rfl) (by simp)
  next conn looked =>
    obtain ⟨found, -⟩ := connMut_spec looked
    split
    next => exact outcome_same (fun _ _ here => here) rfl (.inl rfl) (by simp)
    next ready =>
      simp only [not_or] at ready
      split
      next ws e refused =>
        refine .visited (turn_slot found ?_ ?_ (.inl rfl)) (.closeRefused h code reason ready.1 refused)
        · rfl
        · rfl
      next ws sent =>
        refine .visited (turn_slot found ?_ ?_ (.inl rfl))
          (.closing h code reason idle ready.1 ready.2 sent)
        · rfl
        · rfl

omit [AcceptDigest] in
/-- Taking a connection out of its slot leaves the others. -/
theorem retireSlot_leaves (slots : Slots sys.pool sys.handles) {connId generation j : Nat}
    {now : ConnectionState}
    (here : (sys.pool.retireSlot connId generation).1.connAt j = some now) :
    sys.pool.connAt j = some now := by
  cases found : sys.pool.connAt connId with
  | none => simpa [Pool.retireSlot, found] using here
  | some dead =>
      by_cases matching : generation = dead.identity.generation
      · rw [matching, Pool.retireSlot_eq found (slots.occupant _ _ found).2] at here
        exact (Pool.connAt_vacated_cases found here).2
      · simpa [Pool.retireSlot, found, matching] using here

theorem remove_outcome (slots : Slots sys.pool sys.handles) (h : ConnHandle) :
    Outcome sys (.remove h) (sys.act (.remove h)).1 := by
  have same : (sys.pool.removeConn h).1 = (sys.pool.retireSlot h.asU32 h.generation).1 := by
    unfold Pool.removeConn
    split <;> simp_all
  simp only [act, quietly, same]
  exact outcome_same (fun j now here => retireSlot_leaves slots here) rfl (.inl rfl) (by simp)

theorem abandon_outcome (slots : Slots sys.pool sys.handles) :
    Outcome sys .abandon (sys.act .abandon).1 := by
  simp only [act]
  cases sys.driving with
  | none => exact outcome_same (fun _ _ here => here) rfl (.inl rfl) (by simp)
  | some i =>
      dsimp only
      cases sys.pool.connAt i with
      | none => exact outcome_same (fun _ _ here => here) rfl (.inr rfl) (by simp)
      | some dead =>
          exact outcome_same (fun j now here => retireSlot_leaves slots here) rfl (.inr rfl)
            (by simp)

/-- Every step has an outcome. -/
theorem step_outcome (slots : Slots sys.pool sys.handles) (label : PoolLabel) :
    Outcome sys label (poolMachine.step sys label).1 := by
  simp only [poolMachine]
  split
  next enabled =>
    cases label with
    | post | spurious | begin | enter =>
        exact outcome_same (fun _ _ here => here) rfl (.inl rfl) (by simp)
    | drain =>
        refine outcome_same (fun _ _ here => here) ?_ (.inl rfl) (by simp)
        simp [act, through_eq, PumpCall.drainCompletions]
    | connect cfg addr opening blocking => exact .opened cfg addr opening blocking rfl rfl
    | remove h => exact remove_outcome slots h
    | send h what => exact send_outcome h what
    | close h code reason => exact close_outcome h code reason enabled
    | submit i => exact submit_outcome i
    | dispatch pump => exact dispatch_outcome pump
    | poll i => exact poll_outcome i
    | driveTarget => exact driveTarget_outcome enabled
    | driveVerdict => exact driveVerdict_outcome enabled
    | abandon => exact abandon_outcome slots
  next disabled =>
    exact .same (fun _ _ here => here) rfl (.inl rfl) fun _ _ _ enabled => absurd enabled disabled

end System

/-! ## What visits do to the client -/

omit [AcceptDigest] in
theorem ConnectionState.settle_ws {α : Type} (conn : ConnectionState)
    (result : Except ConnectionError α) : (conn.settle result).ws = conn.ws := by
  obtain ⟨state, same⟩ := conn.settle_eq result
  rw [same]

/-- A visit respects what the connection does of its own accord and a close of the user respect,
unless it is a send. -/
theorem Tended.visit {R : WsClient → WsClient → Prop} (tended : Tended R)
    (closes : ∀ w code reason, R w (WsClient.sendClose w code reason).1) {i : Nat}
    {conn conn' : ConnectionState} {label : PoolLabel} {consumed : List Completion}
    {items : List SinkItem} (visit : Visit sys i conn label consumed conn' items) :
    (∃ h what, label = .send h what ∧ conn.token = h.raw ∧ conn'.ws = (what.run conn.ws).1 ∧
        (what.run conn.ws).2.toOption = (sys.pool.sendWith h what.run).2.toOption) ∨
      (∀ h what, label ≠ .send h what) ∧ R conn.ws conn'.ws := by
  have submits {conn₁ : ConnectionState} {proactor₁ : Proactor}
      {result : Except ConnectionError Unit}
      (sent : conn.trySubmitSend sys.pool.proactor = (conn₁, proactor₁, result)) :
      R conn.ws conn₁.ws := by
    have staged := tended.trySubmitSend conn sys.pool.proactor
    rwa [sent] at staged
  have rearms {conn₁ conn₂ : ConnectionState} {proactor₁ proactor₂ : Proactor}
      {result : Except ConnectionError Unit}
      (armed : conn₁.tryRearmMultishot proactor₁ = (conn₂, proactor₂, result)) :
      conn₂.ws = conn₁.ws := by
    have same := Tended.tryRearmMultishot_ws conn₁ proactor₁
    rwa [armed] at same
  have polls := tended.pollAll conn.ws
  have polls_once := tended.pollEvent conn.ws
  cases visit with
  | sent h what slot token isOpen answer =>
      exact .inl ⟨h, what, rfl, token, rfl, answer⟩
  | submitted sent armed =>
      refine .inr ⟨by simp, ?_⟩
      rw [rearms armed]
      exact submits sent
  | sendFailed sent =>
      have staged := submits sent
      exact .inr ⟨by simp, staged⟩
  | rearmFailed sent armed =>
      refine .inr ⟨by simp, ?_⟩
      have same := rearms armed
      dsimp only
      rw [same]
      exact submits sent
  | completed pump c rest buffered routed handles =>
      refine .inr ⟨by simp, ?_⟩
      have handled := tended.handleCompletionFor conn sys.pool.proactor pump c
      rw [handles] at handled
      rw [ConnectionState.settle_ws]
      exact handled
  | ran pump =>
      refine .inr ⟨by simp, ?_⟩
      rw [ConnectionState.settle_ws]
      exact tended.handlePlainRecvDataBatchFor conn pump consumed
  | skipped => exact .inr ⟨by simp, tended.refl _⟩
  | polled active polled =>
      rw [polled] at polls
      refine .inr ⟨by simp, ?_⟩
      rw [ConnectionState.syncs_eq]
      exact polls
  | pollFailed active polled =>
      rw [polled] at polls
      refine .inr ⟨by simp, ?_⟩
      rw [ConnectionState.syncs_eq]
      exact polls
  | driven _ _ _ _ polled =>
      rw [polled] at polls_once
      refine .inr ⟨by simp, ?_⟩
      rw [ConnectionState.syncs_eq]
      exact polls_once
  | driveFailed _ polled =>
      rw [polled] at polls_once
      exact .inr ⟨by simp, polls_once⟩
  | driveSynced =>
      refine .inr ⟨by simp, ?_⟩
      rw [ConnectionState.syncWsOpenState_eq]
      exact tended.refl _
  | closeRefused h code reason _ refused =>
      have closed := closes conn.ws code reason
      rw [refused] at closed
      exact .inr ⟨by simp, closed⟩
  | closing h code reason _ _ _ accepted =>
      have closed := closes conn.ws code reason
      rw [accepted] at closed
      exact .inr ⟨by simp, closed⟩

/-- What holds of a new client and is kept by all that can happen to one holds of the clients of all
connections. -/
theorem System.clients_hold {P : WsClient → Prop}
    (created : ∀ {config rng w}, WsClient.newClient config rng = .ok w → P w)
    (tended : Tended fun w w' => P w → P w')
    (closes : ∀ w code reason, P w → P (WsClient.sendClose w code reason).1)
    (sends : ∀ (what : SendCall) (w : WsClient), P w → P (what.run w).1)
    {admits : System → PoolLabel → Prop} (reached : poolMachine.Reach admits sys) :
    ∀ i conn, sys.pool.connAt i = some conn → P conn.ws := by
  induction reached with
  | start initial =>
      obtain ⟨_, _, _, _, rfl⟩ := System.initial_spec initial
      simp [Pool.connAt]
  | @next sys label reached _ ih =>
      have slots := System.slots_reach reached
      have outcome := System.step_outcome slots label
      generalize (poolMachine.step sys label).1 = sys' at outcome ⊢
      cases outcome with
      | same conns => exact fun j now here => ih j now (conns j now here)
      | opened cfg addr opening blocking _ made =>
          rw [made]
          intro j now here
          rcases System.openConn_cases slots cfg addr opening blocking with
            ⟨slot, fresh, e, stock, -, same⟩ |
            ⟨slot, fresh, conn, rest, bgids, proactor, stock, made, -, free, -, -, -, -, same⟩
          · rw [same, Pool.connAt_stocked] at here
            exact ih j now here
          · have inside :=
              ((slots.stocked stock).freeVacant conn.identity.connId (by simp [free])).1
            rw [same] at here
            rcases Pool.connAt_occupied_cases inside here with ⟨-, rfl⟩ | ⟨-, there⟩
            · exact created made.ws
            · rw [Pool.connAt_stocked] at there
              exact ih j now there
      | @visited i conn _ _ _ turn visit =>
          intro j now here
          rcases turn.cases here with ⟨rfl, rfl⟩ | ⟨-, there⟩
          · have before := ih j conn turn.found
            rcases tended.visit closes visit with ⟨h, what, -, -, ws, -⟩ | ⟨-, keeps⟩
            · rw [ws]
              exact sends what conn.ws before
            · exact keeps before
          · exact ih j now there

end Visits

end Talaris
