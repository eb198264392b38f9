import Talaris.Pool.Backpressure
import Talaris.Pool.Lifecycle
import Talaris.Pool.Outgoing

/-!
# The Close frame of a failed connection

A client that rejects what it has received queues a Close frame and starts to close.  The
driver, told of the error, puts the connection into `Closed` at once, and the submit phase
passes over closed connections: the frame is never sent (`farewell_never_sent`).
-/

namespace Talaris

open Talaris.Basis
open Talaris.Ws

section Farewell

variable [Rustls]

/-! ## The submit phase of a failed connection -/

/-- The submissions of a connection carry its token; a closed one has none. -/
theorem submitOps_tokens {conn : ConnectionState} (small : conn.token < 2 ^ 56)
    (proactor : Proactor) :
    ∃ pushed, (conn.submitOps proactor).2.1.sq = proactor.sq ++ pushed ∧
      (∀ sqe ∈ pushed, sqe.userData.token = conn.token) ∧
      (conn.state = .closed → pushed = []) := by
  by_cases closed : conn.state = .closed
  · have asleep : conn.quiet = true := by simp [ConnectionState.quiet, closed]
    refine ⟨[], ?_, by simp, fun _ => rfl⟩
    simp [ConnectionState.submitOps, ConnectionState.trySubmitSend,
      ConnectionState.tryRearmMultishot, asleep]
  · have carried {conn₁ : ConnectionState} {sends recvs : List Sqe}
        (pushes : conn.Pushes conn₁ sends recvs) :
        ∀ sqe ∈ sends ++ recvs, sqe.userData.token = conn.token := by
      have token : conn₁.token = conn.token :=
        congrArg (fun endpoint => endpoint.identity.token) pushes.endpoint
      intro sqe member
      rcases List.mem_append.mp member with send | recv
      · cases busy : conn.sendInflight with
        | true => simp [(pushes.busy busy).1] at send
        | false =>
            rcases pushes.free busy with ⟨none, -⟩ | ⟨one, -⟩
            · simp [none] at send
            · obtain rfl : sqe = conn₁.sendSqe := by simpa [one] using send
              rw [← token] at small ⊢
              exact UserData.token_new _ small
      · rcases pushes.armed with none | ⟨ring, -, one⟩
        · simp [none] at recv
        · obtain rfl : sqe = conn.recvSqe ring.bgid := by simpa [one] using recv
          exact UserData.token_new _ small
    unfold ConnectionState.submitOps
    cases sent : conn.trySubmitSend proactor with
    | mk conn₁ rest =>
        obtain ⟨proactor₁, result⟩ := rest
        obtain ⟨sends, pushes, rfl⟩ := ConnectionState.trySubmitSend_pushes sent
        cases result with
        | error e =>
            refine ⟨sends, rfl, ?_, fun isClosed => absurd isClosed closed⟩
            simpa using carried pushes
        | ok done =>
            dsimp only
            cases armed : conn₁.tryRearmMultishot { proactor with sq := proactor.sq ++ sends } with
            | mk conn₂ rest =>
                obtain ⟨proactor₂, result⟩ := rest
                obtain ⟨recvs, pushes', rfl⟩ := pushes.rearm armed
                exact ⟨sends ++ recvs, by simp, carried pushes', fun isClosed => absurd isClosed closed⟩

/-- The whole submit phase pushes nothing for a token whose connections are all closed. -/
theorem submitConnOps_silent {pool : Pool} {handles : List ConnHandle} (slots : Slots pool handles)
    {token : Nat} (closed : ∀ i conn, pool.connAt i = some conn → conn.token = token →
      conn.state = .closed) :
    ∃ pushed, (PumpCall.start pool).submitConnOps.pool.proactor.sq = pool.proactor.sq ++ pushed ∧
      ∀ sqe ∈ pushed, sqe.userData.token ≠ token := by
  have phase (k : Nat) : ∃ pushed,
      ((List.range k).foldl PumpCall.submitConnAt (PumpCall.start pool)).pool.proactor.sq =
        pool.proactor.sq ++ pushed ∧ ∀ sqe ∈ pushed, sqe.userData.token ≠ token := by
    induction k with
    | zero => exact ⟨[], by simp [PumpCall.start], by simp⟩
    | succ k ih =>
        obtain ⟨pushed, queued, others⟩ := ih
        have later := (PumpCall.submitConnOps_phase pool k).later k (Nat.le_refl k)
        rw [List.range_succ, List.foldl_append, List.foldl_cons, List.foldl_nil]
        generalize (List.range k).foldl PumpCall.submitConnAt (PumpCall.start pool) = call
          at queued later ⊢
        cases found : pool.connAt k with
        | none =>
            rw [PumpCall.submitConnAt_none (later.trans found)]
            exact ⟨pushed, queued, others⟩
        | some conn =>
            obtain ⟨proactor, -⟩ := PumpCall.submitConnAt_eq (later.trans found)
            obtain ⟨more, queued', tokens, silent⟩ :=
              submitOps_tokens (slots.token_lt found) call.pool.proactor
            refine ⟨pushed ++ more, ?_, ?_⟩
            · rw [proactor, queued', queued, List.append_assoc]
            · intro sqe member
              rcases List.mem_append.mp member with old | new
              · exact others sqe old
              · intro same
                rw [silent (closed k conn found ((tokens sqe new).symm.trans same))] at new
                cases new
  exact phase pool.conns.length

/-! ## The failure -/

variable [AcceptDigest]

/-- The connection that a step of a pump handles and fails, with the error it reports. -/
def System.failure (sys : System) : PoolLabel → Option (Nat × ConnectionError)
  | .dispatch pump =>
      match sys.pool.completionsBuf with
      | [] => none
      | c :: rest =>
          match PumpCall.connForCompletion sys.pool.conns c with
          | none => none
          | some (i, conn) =>
              match
                match PumpCall.runOf pump conn c rest with
                | some after => (conn.batchHandler pump (c :: after)).result
                | none => (conn.completionHandler sys.pool.proactor pump c).2.result with
              | .ok _ => none
              | .error e => some (i, e)
  | .poll i =>
      match sys.pool.connAt i with
      | none => none
      | some conn =>
          if sys.enabled (.poll i) ∧ conn.state ≠ .closed then
            conn.ws.pollAll.2.2.map fun e => (i, .ws e)
          else none
  | _ => none

omit [AcceptDigest] in
theorem PumpCall.finishConnResult_closes {call : PumpCall} {i : Nat} {conn : ConnectionState}
    {result : Except ConnectionError Nat} {e : ConnectionError} (failed : result = .error e)
    (wasActive : Bool) (inside : i < call.pool.conns.length) :
    ∃ conn', (call.finishConnResult i conn result wasActive).pool.connAt i = some conn' ∧
      conn'.state = .closed := by
  subst failed
  exact ⟨_, call.failConnAndAccount_closes inside conn e wasActive, rfl⟩

theorem PumpCall.pollConnAt_closes {call : PumpCall} {i : Nat} {conn : ConnectionState}
    (found : call.pool.connAt i = some conn) (active : conn.state ≠ .closed) {ws : WsClient}
    {events : List Event} {e : WsError} (polled : conn.ws.pollAll = (ws, events, some e)) :
    ∃ conn', (call.pollConnAt i).pool.connAt i = some conn' ∧ conn'.state = .closed := by
  generalize failed : { conn with ws, state := .closed
    }.syncWsOpenState.syncWsCloseState.clearWsIngressDirty = conn'
  have closed : conn'.state = .closed := by
    rw [← failed, ConnectionState.syncs_eq]
    exact ConnectionState.syncedState_closed rfl (WsClient.pollAll_error_ending polled).ne_open
  have closing : (call.pollConnAt i).pool.conns = call.pool.conns.set i (some conn') := by
    rw [← failed]
    simp [PumpCall.pollConnAt, found, active, polled, PumpCall.emit, PumpCall.failConnAndAccount,
      Pool.setConn]
  refine ⟨conn', ?_, closed⟩
  rw [Pool.connAt, closing, Pool.connAt_set (Pool.connAt_lt found), if_pos rfl]

/-- The driver closes the connection that fails. -/
theorem System.failure_closes {sys : System} {label : PoolLabel} {i : Nat} {e : ConnectionError}
    (fails : sys.failure label = some (i, e)) :
    ∃ conn', (poolMachine.step sys label).1.pool.connAt i = some conn' ∧ conn'.state = .closed := by
  cases label with
  | dispatch pump =>
      have stepped : (poolMachine.step sys (.dispatch pump)).1.pool =
          (PumpCall.dispatchNext pump ⟨sys.pool, sys.firstErr, []⟩).pool := rfl
      rw [stepped]
      unfold System.failure at fails
      dsimp only at fails
      unfold PumpCall.dispatchNext
      dsimp only
      cases buffered : sys.pool.completionsBuf with
      | nil => simp [buffered] at fails
      | cons c rest =>
          simp only [buffered] at fails
          cases routed : PumpCall.connForCompletion sys.pool.conns c with
          | none => simp [routed] at fails
          | some slot =>
              obtain ⟨j, conn⟩ := slot
              have inside := Pool.connAt_lt (System.connForCompletion_spec routed).1
              simp only [routed] at fails ⊢
              cases run : PumpCall.runOf pump conn c rest with
              | some after =>
                  simp only [run] at fails ⊢
                  split at fails
                  next => cases fails
                  next e' failed =>
                    cases fails
                    apply PumpCall.finishConnResult_closes failed
                    exact inside
              | none =>
                  simp only [run] at fails ⊢
                  split at fails
                  next => cases fails
                  next e' failed =>
                    cases fails
                    apply PumpCall.finishConnResult_closes failed
                    exact inside
  | poll j =>
      unfold System.failure at fails
      dsimp only at fails
      cases found : sys.pool.connAt j with
      | none => simp [found] at fails
      | some conn =>
          simp only [found] at fails
          split at fails
          next able =>
            obtain ⟨enabled, active⟩ := able
            cases polled : conn.ws.pollAll with
            | mk ws rest =>
                obtain ⟨events, error⟩ := rest
                cases error with
                | none => simp [polled] at fails
                | some e' =>
                    simp only [polled, Option.map_some, Option.some.injEq, Prod.mk.injEq] at fails
                    obtain ⟨rfl, -⟩ := fails
                    have stepped : (poolMachine.step sys (.poll j)).1.pool =
                        (PumpCall.pollConnAt ⟨sys.pool, sys.firstErr, []⟩ j).pool := by
                      simp only [poolMachine, enabled, if_true]
                      rfl
                    rw [stepped]
                    exact PumpCall.pollConnAt_closes found active polled
          next => cases fails
  | post _ | spurious _ | begin | enter | drain | connect _ _ _ _ | remove _ | send _ _ | close _ _ _
  | submit _ | driveTarget | driveVerdict | abandon => cases fails

/-! ## What stays of it -/

/-- Every connection with the token is closed, and its client will not open again. -/
structure System.Ended (sys : System) (token : Nat) : Prop where
  known : ConnHandle.mk token ∈ sys.handles
  closed : ∀ i conn, sys.pool.connAt i = some conn → conn.token = token →
    conn.state = .closed ∧ conn.ws.state ≠ .isOpen

theorem System.Ended.step {sys : System} {token : Nat} (slots : Slots sys.pool sys.handles)
    (ended : sys.Ended token) (label : PoolLabel) : (poolMachine.step sys label).1.Ended token := by
  have known := (System.handles_move slots (sys.step_move label)).subset ended.known
  refine ⟨known, ?_⟩
  have change := System.change slots label
  have slots' := System.slots_move slots (sys.step_move label)
  generalize poolMachine.step sys label = next at change known slots' ⊢
  obtain ⟨sys', out⟩ := next
  cases change with
  | kernel => exact ended.closed
  | step _ _ found _ _ _ _ stepped =>
      intro j now here same
      rcases Pool.connAt_update_cases found here with ⟨-, rfl⟩ | ⟨-, there⟩
      · have token : now.token = _ :=
          congrArg (fun endpoint => endpoint.identity.token) stepped.effect.endpoint
        obtain ⟨closed, notOpen⟩ := ended.closed _ _ found (token.symm.trans same)
        obtain ⟨closed', -, reader⟩ := stepped.closed closed fun _ => notOpen
        have ws : now.ws = _ := congrArg Reader.ws reader
        exact ⟨closed', ws ▸ notOpen⟩
      · exact ended.closed j now there same
  | refused =>
      intro j now here same
      rw [Pool.connAt_stocked] at here
      exact ended.closed j now here same
  | seated _ _ _ _ _ _ _ _ _ _ _ inside _ fresh =>
      intro j now here same
      rcases Pool.connAt_occupied_cases inside here with ⟨-, rfl⟩ | ⟨-, there⟩
      · have carried : ConnHandle.fromConn now = ConnHandle.mk token := congrArg ConnHandle.mk same
        exact absurd ended.known (carried ▸ fresh)
      · rw [Pool.connAt_stocked] at there
        exact ended.closed j now there same
  | retired _ _ found =>
      intro j now here same
      exact ended.closed j now (Pool.connAt_vacated_cases found here).2 same

theorem System.Ended.run {sys : System} {token : Nat} (slots : Slots sys.pool sys.handles)
    (ended : sys.Ended token) (labels : List PoolLabel) :
    Slots (poolMachine.run sys labels).1.pool (poolMachine.run sys labels).1.handles ∧
      (poolMachine.run sys labels).1.Ended token := by
  induction labels generalizing sys with
  | nil => exact ⟨slots, ended⟩
  | cons label labels ih =>
      rw [Machine.run_cons]
      exact ih (System.slots_move slots (sys.step_move label)) (ended.step slots label)

/-- Whenever a step of a pump fails a connection and its client has queued a Close frame in that
step, no later submit phase pushes anything for the connection. -/
theorem farewell_never_sent {sys : System} (reached : poolMachine.Reach Machine.always sys)
    {label : PoolLabel} {i : Nat} {conn conn' : ConnectionState} {e : ConnectionError}
    (found : sys.pool.connAt i = some conn) (fails : sys.failure label = some (i, e))
    (found' : (poolMachine.step sys label).1.pool.connAt i = some conn') {close : OutFrame}
    (queued : close ∈ conn'.ws.tx.outbound.drop conn.ws.tx.outbound.length)
    (isClose : close.opcode = .close) (labels : List PoolLabel) :
    let later := (poolMachine.run (poolMachine.step sys label).1 labels).1.pool
    ∃ pushed, (PumpCall.start later).submitConnOps.pool.proactor.sq = later.proactor.sq ++ pushed ∧
      ∀ sqe ∈ pushed, sqe.userData.token ≠ conn.token := by
  have slots := System.slots_reach reached
  have reached' : poolMachine.Reach Machine.always (poolMachine.step sys label).1 :=
    .next label reached trivial
  have slots' := System.slots_reach reached'
  have token : conn'.token = conn.token := System.token_kept slots label found found'
  have ended : (poolMachine.step sys label).1.Ended conn.token := by
    constructor
    case known => exact token ▸ slots'.seated i conn' found'
    case closed =>
      intro j now here same
      -- the only connection with the token is the one that has failed
      obtain rfl : j = i := slots'.handle_unique here found'
        (congrArg ConnHandle.mk (same.trans token.symm))
      rw [found', Option.some.injEq] at here
      subst here
      obtain ⟨failed, there, closed⟩ := System.failure_closes fails
      rw [found', Option.some.injEq] at there
      subst there
      obtain ⟨before, after, split⟩ := List.append_of_mem (List.mem_of_mem_drop queued)
      have inUse := System.clients_inUse reached' j conn' found'
      exact ⟨closed, (inUse.orderly.disciplined.close split isClose).1.ne_open⟩
  obtain ⟨slots'', ended'⟩ := ended.run slots' labels
  exact submitConnOps_silent slots'' fun j now here same => (ended'.closed j now here same).1

end Farewell

/-! ## A frame with a reserved bit

The request is out and the connection open; the peer sends the two bytes of a frame header with
RSV1 set. -/

attribute [local instance] Sample.rustls Ws.Sample.digest

def reservedBit : List PoolLabel :=
  Sample.upgrade ++ [.post ⟨1, 148, 0, []⟩, .post ⟨0, 2, 0x10003, [0xC1, 0x00]⟩, .drain,
    .dispatch .data]

/-- The completion is drained and not handled. -/
def beforeFailure : System := (poolMachine.run (Sample.start 256 fun _ => none) reservedBit).1

def afterFailure : System := (poolMachine.step beforeFailure (.dispatch .data)).1

theorem beforeFailure_reached : poolMachine.Reach Machine.always beforeFailure :=
  .run_always (.start (Sample.start_initial _ (by decide))) reservedBit

theorem beforeFailure_fails :
    beforeFailure.failure (.dispatch .data) = some (0, .ws (.frame .rsvBitsSet)) := by
  decide +kernel

theorem farewell_left_behind :
    poolMachine.Reach Machine.always beforeFailure ∧
      beforeFailure.pool.state Sample.handle = some .isOpen ∧
      beforeFailure.failure (.dispatch .data) = some (0, .ws (.frame .rsvBitsSet)) ∧
      (afterFailure.pool.connAt 0).map (fun conn =>
        (conn.ws.tx.outbound.map OutFrame.opcode, conn.sendInflight)) = some ([.close], false) ∧
      afterFailure.pool.proactor.sq = [] ∧
      (PumpCall.start afterFailure.pool).submitConnOps.pool.proactor.sq = [] :=
  ⟨beforeFailure_reached, by decide +kernel⟩

theorem farewell_never_sent_reserved :
    let later := (poolMachine.run (poolMachine.step beforeFailure (.dispatch .data)).1 []).1.pool
    ∃ pushed, (PumpCall.start later).submitConnOps.pool.proactor.sq = later.proactor.sq ++ pushed ∧
      ∀ sqe ∈ pushed, sqe.userData.token ≠ Sample.handle.raw := by
  obtain ⟨conn, found⟩ :=
    Option.isSome_iff_exists.mp (show (beforeFailure.pool.connAt 0).isSome by decide +kernel)
  obtain ⟨conn', found'⟩ :=
    Option.isSome_iff_exists.mp (show (afterFailure.pool.connAt 0).isSome by decide +kernel)
  have facts : (beforeFailure.pool.connAt 0).map (fun conn => (conn.token, conn.ws.tx.outbound)) =
      some (Sample.handle.raw, []) := by decide +kernel
  have farewell : (afterFailure.pool.connAt 0).map
      (fun conn => conn.ws.tx.outbound.map OutFrame.opcode) = some [.close] := by decide +kernel
  rw [found, Option.map_some, Option.some.injEq, Prod.mk.injEq] at facts
  rw [found', Option.map_some, Option.some.injEq] at farewell
  obtain ⟨token, nothing⟩ := facts
  obtain ⟨close, queued, isClose⟩ := List.map_eq_singleton_iff.mp farewell
  have fresh : close ∈ conn'.ws.tx.outbound.drop conn.ws.tx.outbound.length := by
    rw [nothing, queued]
    exact List.mem_singleton_self close
  rw [← token]
  exact farewell_never_sent beforeFailure_reached found beforeFailure_fails found' fresh isClose []

end Talaris
