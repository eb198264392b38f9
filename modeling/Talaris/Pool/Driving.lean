import Talaris.Pool.Backpressure

/-!
# Failures while a connection is driven open

The blocking calls drive their new connection in rounds for the whole pool.  A round hands the
first error of any connection to the loop, and the loop gives up: the new connection is taken out
of its slot although another one failed.  A failure of the call is its own exactly when no round
has a failure of another connection alone (`blocking_failures_own_iff`).
-/

namespace Talaris

open Talaris.Basis
open Talaris.Ws

/-! ## The connections that fail in a round -/

namespace PumpCall

variable [Rustls]

/-- The slot, if its connection fails to submit. -/
def submitFailure (call : PumpCall) (i : Nat) : List Nat :=
  match call.pool.connAt i with
  | none => []
  | some conn =>
      match (conn.submitOps call.pool.proactor).2.2 with
      | .error _ => [i]
      | .ok () => []

/-- The slots whose connections fail in the submit phase. -/
def submitFailures : PumpCall → List Nat → List Nat
  | _, [] => []
  | call, i :: slots => call.submitFailure i ++ (call.submitConnAt i).submitFailures slots

theorem submitConnAt_firstErr (call : PumpCall) (i : Nat) :
    (call.submitConnAt i).firstErr ≠ none ↔
      call.firstErr ≠ none ∨ call.submitFailure i ≠ [] := by
  unfold submitConnAt submitFailure ConnectionState.submitOps
  cases call.pool.connAt i with
  | none => simp
  | some conn =>
      dsimp only
      cases conn.trySubmitSend call.pool.proactor with
      | mk conn₁ rest =>
          obtain ⟨proactor₁, result⟩ := rest
          cases result with
          | error e => simp [failConnAndAccount]
          | ok done =>
              dsimp only
              cases conn₁.tryRearmMultishot proactor₁ with
              | mk conn₂ rest =>
                  obtain ⟨proactor₂, result⟩ := rest
                  cases result <;> simp [failConnAndAccount]

theorem foldl_submitConnAt_firstErr (slots : List Nat) (call : PumpCall) :
    (slots.foldl submitConnAt call).firstErr ≠ none ↔
      call.firstErr ≠ none ∨ call.submitFailures slots ≠ [] := by
  induction slots generalizing call with
  | nil => simp [submitFailures]
  | cons i slots ih =>
      rw [List.foldl_cons, ih, call.submitConnAt_firstErr, submitFailures, or_assoc,
        ne_eq (_ ++ _), List.append_eq_nil_iff, not_and_or]

variable [AcceptDigest]

/-- The slot, if its connection fails with the next completion or run. -/
def dispatchFailure (pump : PumpKind) (call : PumpCall) : List Nat :=
  match call.pool.completionsBuf with
  | [] => []
  | c :: rest =>
      match connForCompletion call.pool.conns c with
      | none => []
      | some (i, conn) =>
          let result :=
            match runOf pump conn c rest with
            | some after => (conn.batchHandler pump (c :: after)).result
            | none => (conn.completionHandler call.pool.proactor pump c).2.result
          match result with
          | .error _ => [i]
          | .ok _ => []

/-- The slots whose connections fail in so many steps. -/
def dispatchFailures (pump : PumpKind) : Nat → PumpCall → List Nat
  | 0, _ => []
  | steps + 1, call =>
      call.dispatchFailure pump ++ dispatchFailures pump steps (call.dispatchNext pump)

omit [AcceptDigest] in
theorem finishConnResult_firstErr (call : PumpCall) (i : Nat) (conn : ConnectionState)
    (result : Except ConnectionError Nat) (wasActive : Bool) :
    (call.finishConnResult i conn result wasActive).firstErr ≠ none ↔
      call.firstErr ≠ none ∨ (match result with
        | .error _ => [i]
        | .ok _ => []) ≠ [] := by
  cases result <;> simp [finishConnResult, failConnAndAccount]

theorem dispatchNext_firstErr (pump : PumpKind) (call : PumpCall) :
    (call.dispatchNext pump).firstErr ≠ none ↔
      call.firstErr ≠ none ∨ call.dispatchFailure pump ≠ [] := by
  unfold dispatchNext dispatchFailure
  cases call.pool.completionsBuf with
  | nil => simp
  | cons c rest =>
      dsimp only
      cases connForCompletion call.pool.conns c with
      | none => simp
      | some slot =>
          obtain ⟨i, conn⟩ := slot
          dsimp only
          cases runOf pump conn c rest with
          | some after => exact finishConnResult_firstErr ..
          | none => exact finishConnResult_firstErr ..

theorem iterate_dispatchNext_firstErr (pump : PumpKind) (steps : Nat) (call : PumpCall) :
    ((dispatchNext pump)^[steps] call).firstErr ≠ none ↔
      call.firstErr ≠ none ∨ dispatchFailures pump steps call ≠ [] := by
  induction steps generalizing call with
  | zero => simp [dispatchFailures]
  | succ steps ih =>
      rw [Function.iterate_succ_apply, ih, call.dispatchNext_firstErr, dispatchFailures, or_assoc,
        ne_eq (_ ++ _), List.append_eq_nil_iff, not_and_or]

omit [AcceptDigest] in
@[simp] theorem enter_firstErr (call : PumpCall)
    (syscall : Proactor → Proactor × Except ProactorError Unit) :
    (call.enter syscall).1.firstErr = call.firstErr := by
  unfold enter
  split <;> rfl

omit [AcceptDigest] in
/-- Only the submit phase can leave an error of a connection. -/
theorem submitAndWait_firstErr (call : PumpCall) (waitNr : Nat) (posts : List Proactor.Post) :
    (call.submitAndWait waitNr posts).1.firstErr = call.submitConnOps.firstErr := by
  have entered := call.submitConnOps.enter_firstErr Proactor.submit
  unfold submitAndWait
  split
  next call₁ e failed =>
    rw [failed] at entered
    exact entered
  next call₁ submitted =>
    rw [submitted] at entered
    exact (enter_firstErr ..).trans entered

end PumpCall

/-! ## Turns -/

section Turns

variable [Rustls] [AcceptDigest]

/-- A turn of the loop: the pool that it starts from, and what the kernel posts. -/
structure DriveTurn where
  pool : Pool
  posts : List Proactor.Post

namespace DriveTurn

/-- Submit and wait. -/
def entered (turn : DriveTurn) : PumpCall × Except ConnectionError Unit :=
  (PumpCall.start turn.pool).submitAndWait 1 turn.posts

/-- The slots whose connections fail in the round of a turn. -/
def failures (turn : DriveTurn) : List Nat :=
  (PumpCall.start turn.pool).submitFailures (List.range turn.pool.conns.length) ++
    match turn.entered with
    | (_, .error _) => []
    | (call, .ok ()) =>
        PumpCall.dispatchFailures .events call.drainCompletions.pool.completionsBuf.length
          call.drainCompletions

/-- The pool after the round. -/
def rounded (turn : DriveTurn) : Pool := (PumpCall.driveOpenOnce turn.pool 1 turn.posts).1.pool

/-- The connection is not there, or closed. -/
def Gone (pool : Pool) (connId : Nat) : Prop :=
  ∀ conn, pool.connAt connId = some conn → conn.state = .closed

/-- A call of the proactor fails, or the connection in the slot does, or it closes. -/
inductive OwnFailure (turn : DriveTurn) (connId : Nat) : Prop
  | proactor {e : ConnectionError} : turn.entered.2 = .error e → OwnFailure turn connId
  | failed : connId ∈ turn.failures → OwnFailure turn connId
  | closed : Gone (turn.pool.driveTurn connId turn.posts).1 connId → OwnFailure turn connId

/-- No other connection fails in the round alone: with it a call of the proactor fails, or the
connection in the slot does, or that has closed. -/
def Undisturbed (turn : DriveTurn) (connId : Nat) : Prop :=
  (∃ i ∈ turn.failures, i ≠ connId) →
    (∃ e, turn.entered.2 = .error e) ∨ connId ∈ turn.failures ∨ Gone turn.rounded connId

/-- The round fails by the proactor or by a connection. -/
theorem driveOpenOnce_error_iff (turn : DriveTurn) :
    (∃ e, (PumpCall.driveOpenOnce turn.pool 1 turn.posts).2 = .error e) ↔
      (∃ e, turn.entered.2 = .error e) ∨ turn.failures ≠ [] := by
  have submitted := PumpCall.foldl_submitConnAt_firstErr (List.range turn.pool.conns.length)
    (PumpCall.start turn.pool)
  have kept := (PumpCall.start turn.pool).submitAndWait_firstErr 1 turn.posts
  unfold failures PumpCall.driveOpenOnce
  rw [entered]
  generalize (PumpCall.start turn.pool).submitAndWait 1 turn.posts = outcome at kept ⊢
  obtain ⟨call, result⟩ := outcome
  cases result with
  | error e => simp
  | ok done =>
      have dispatched := PumpCall.iterate_dispatchNext_firstErr .events
        call.drainCompletions.pool.completionsBuf.length call.drainCompletions
      have verdict (call : PumpCall) : (∃ e, call.verdict = .error e) ↔ call.firstErr ≠ none := by
        unfold PumpCall.verdict
        cases call.firstErr <;> simp
      have drained : call.drainCompletions.firstErr =
          ((List.range turn.pool.conns.length).foldl PumpCall.submitConnAt
            (PumpCall.start turn.pool)).firstErr := kept
      dsimp only
      rw [verdict]
      unfold PumpCall.dispatchConnCompletions
      rw [dispatched, drained, submitted]
      rw [ne_eq (_ ++ _), List.append_eq_nil_iff, not_and_or]
      simp [PumpCall.start]

theorem driveTargetHandshakeEvent_gone {pool pool' : Pool} {connId : Nat} {e : ConnectionError}
    (failed : pool.driveTargetHandshakeEvent connId = (pool', .error e)) : Gone pool' connId := by
  unfold Pool.driveTargetHandshakeEvent at failed
  cases found : pool.connAt connId with
  | none => simp [found] at failed
  | some conn =>
      simp only [found] at failed
      split at failed
      next => simp at failed
      next =>
        split at failed
        next ws e polled =>
          obtain ⟨rfl, -⟩ := Prod.mk.inj failed
          intro now here
          rw [PumpCall.failConnAndAccount_closes _ (Pool.connAt_lt found), Option.some.injEq] at here
          rw [← here]
        next => simp at failed

omit [AcceptDigest] in
theorem driveVerdict_gone {pool : Pool} {connId : Nat} {e : ConnectionError}
    (failed : (pool.driveVerdict connId).2 = some (.error e)) :
    Gone (pool.driveVerdict connId).1 connId := by
  unfold Pool.driveVerdict at failed ⊢
  cases found : pool.connAt connId with
  | none =>
      intro now here
      simp [found] at here
  | some conn =>
      simp only [found] at failed ⊢
      intro now here
      have same : conn.syncWsOpenState = now := by
        rw [Pool.setConn, Pool.connAt, Pool.connAt_set (Pool.connAt_lt found), if_pos rfl,
          Option.some.injEq] at here
        exact here
      rw [same] at failed
      cases state : now.state <;> simp [state] at failed ⊢

/-- A turn that ends the loop with an error without an error of the round closes the connection. -/
theorem driveTurn_closed {turn : DriveTurn} {connId : Nat} {e : ConnectionError}
    (failed : (turn.pool.driveTurn connId turn.posts).2 = some (.error e))
    (round : ¬ ∃ e, (PumpCall.driveOpenOnce turn.pool 1 turn.posts).2 = .error e) :
    Gone (turn.pool.driveTurn connId turn.posts).1 connId := by
  unfold Pool.driveTurn at failed ⊢
  generalize PumpCall.driveOpenOnce turn.pool 1 turn.posts = outcome at failed round ⊢
  obtain ⟨call, result⟩ := outcome
  cases result with
  | error e => exact absurd ⟨e, rfl⟩ round
  | ok done =>
      dsimp only at failed ⊢
      cases polled : call.pool.driveTargetHandshakeEvent connId with
      | mk pool result =>
          cases result with
          | error e => exact driveTargetHandshakeEvent_gone polled
          | ok done =>
              simp only [polled] at failed ⊢
              exact driveVerdict_gone failed

/-- A turn fails on account of the connection driven, unless another one fails alone. -/
theorem driveTurn_own_iff (turn : DriveTurn) (connId : Nat) :
    ((∃ e, (turn.pool.driveTurn connId turn.posts).2 = some (.error e)) →
        turn.OwnFailure connId) ↔
      turn.Undisturbed connId := by
  have stopped (failed : ∃ e, (PumpCall.driveOpenOnce turn.pool 1 turn.posts).2 = .error e) :
      (∃ e, (turn.pool.driveTurn connId turn.posts).2 = some (.error e)) ∧
        (turn.pool.driveTurn connId turn.posts).1 = turn.rounded := by
    obtain ⟨e, failed⟩ := failed
    unfold Pool.driveTurn rounded
    generalize PumpCall.driveOpenOnce turn.pool 1 turn.posts = outcome at failed ⊢
    obtain ⟨call, result⟩ := outcome
    subst failed
    exact ⟨⟨e, rfl⟩, rfl⟩
  have round := turn.driveOpenOnce_error_iff
  constructor
  · intro own other
    obtain ⟨i, member, -⟩ := other
    obtain ⟨fails, same⟩ := stopped (round.mpr (.inr (List.ne_nil_of_mem member)))
    rw [← same]
    cases own fails with
    | proactor failed => exact .inl ⟨_, failed⟩
    | failed listed => exact .inr (.inl listed)
    | closed gone => exact .inr (.inr gone)
  · intro undisturbed fails
    by_cases failed : ∃ e, (PumpCall.driveOpenOnce turn.pool 1 turn.posts).2 = .error e
    · obtain ⟨-, same⟩ := stopped failed
      rcases round.mp failed with ⟨e, entry⟩ | some_failure
      · exact .proactor entry
      · obtain ⟨i, member⟩ := List.exists_mem_of_ne_nil _ some_failure
        by_cases own : i = connId
        · exact .failed (own ▸ member)
        · rcases undisturbed ⟨i, member, own⟩ with ⟨e, entry⟩ | listed | gone
          · exact .proactor entry
          · exact .failed listed
          · exact .closed (same ▸ gone)
    · obtain ⟨e, ends⟩ := fails
      exact .closed (driveTurn_closed ends failed)

end DriveTurn

/-! ## The loop and the blocking calls -/

namespace Pool

/-- The turns that the loop takes. -/
def driveTurns (pool : Pool) (connId : Nat) : List (List Proactor.Post) → List DriveTurn
  | [] => []
  | posts :: rounds =>
      ⟨pool, posts⟩ ::
        match pool.driveTurn connId posts with
        | (_, some _) => []
        | (pool, none) => pool.driveTurns connId rounds

/-- The turn in which the loop returns. -/
def lastTurn (pool : Pool) (connId : Nat) : List (List Proactor.Post) → Option DriveTurn
  | [] => none
  | posts :: rounds =>
      match pool.driveTurn connId posts with
      | (_, some _) => some ⟨pool, posts⟩
      | (pool, none) => pool.lastTurn connId rounds

theorem lastTurn_of_ended (turn : DriveTurn) {connId : Nat} {result : Except ConnectionError Unit}
    (ended : (turn.pool.driveTurn connId turn.posts).2 = some result)
    (rounds : List (List Proactor.Post)) :
    turn.pool.lastTurn connId (turn.posts :: rounds) = some turn := by
  unfold lastTurn
  generalize turn.pool.driveTurn connId turn.posts = outcome at ended
  obtain ⟨pool, ends⟩ := outcome
  subst ended
  rfl

/-- The loop fails on account of the connection driven or of the proactor. -/
def DrivesOwn (pool : Pool) (connId : Nat) (rounds : List (List Proactor.Post)) : Prop :=
  (∃ e, (pool.driveConnUntilOpen connId rounds).2 = some (.error e)) →
    ∀ turn, pool.lastTurn connId rounds = some turn → turn.OwnFailure connId

theorem drivesOwn_iff (pool : Pool) (connId : Nat) (rounds : List (List Proactor.Post)) :
    pool.DrivesOwn connId rounds ↔
      ∀ turn ∈ pool.driveTurns connId rounds, turn.Undisturbed connId := by
  induction rounds generalizing pool with
  | nil => simp [DrivesOwn, driveConnUntilOpen, driveTurns]
  | cons posts rounds ih =>
      have here := DriveTurn.driveTurn_own_iff ⟨pool, posts⟩ connId
      unfold DrivesOwn driveTurns driveConnUntilOpen lastTurn
      cases turned : pool.driveTurn connId posts with
      | mk pool' result =>
          simp only [turned] at here
          cases result with
          | some ended =>
              simpa using here
          | none =>
              have going : (DriveTurn.mk pool posts).Undisturbed connId := here.mp (by simp)
              simp only [List.mem_cons, forall_eq_or_imp, going, true_and]
              exact ih pool'

/-- Nothing could be opened, or the last turn failed on account of the connection opened or of
the proactor. -/
def BlamesOwn (opened : Pool × Except ConnectionError ConnHandle)
    (rounds : List (List Proactor.Post)) : Prop :=
  ∀ h, opened.2 = .ok h →
    ∀ turn, opened.1.lastTurn h.asU32 rounds = some turn → turn.OwnFailure h.asU32

/-- In no round that the call drives does another connection fail alone. -/
def Undisturbed (opened : Pool × Except ConnectionError ConnHandle)
    (rounds : List (List Proactor.Post)) : Prop :=
  ∀ h, opened.2 = .ok h →
    ∀ turn ∈ opened.1.driveTurns h.asU32 rounds, turn.Undisturbed h.asU32

theorem driveOpened_own_iff (opened : Pool × Except ConnectionError ConnHandle)
    (rounds : List (List Proactor.Post)) :
    ((∃ e, (driveOpened opened rounds).2 = some (.error e)) → BlamesOwn opened rounds) ↔
      Undisturbed opened rounds := by
  obtain ⟨pool, result⟩ := opened
  cases result with
  | error e => simp [BlamesOwn, Undisturbed]
  | ok h =>
      have driven : (∃ e, (driveOpened (pool, .ok h) rounds).2 = some (.error e)) ↔
          ∃ e, (pool.driveConnUntilOpen h.asU32 rounds).2 = some (.error e) := by
        unfold driveOpened
        dsimp only
        cases pool.driveConnUntilOpen h.asU32 rounds with
        | mk pool' result =>
            rcases result with - | e | done <;> simp
      have whole := drivesOwn_iff pool h.asU32 rounds
      simp only [BlamesOwn, Undisturbed, Except.ok.injEq, forall_eq']
      rw [driven]
      exact whole

/-- The blocking calls fail on account of their own connection or of the proactor exactly when
no round has a failure of another connection alone. -/
theorem blocking_failures_own_iff (pool : Pool) (cfg : ConnectionConfig) (addr : SocketAddr)
    (opening : Opening) (rounds : List (List Proactor.Post)) :
    (((∃ e, (pool.connectBlockingTo cfg addr opening rounds).2 = some (.error e)) →
        BlamesOwn (pool.submitConnectTo cfg addr opening) rounds) ↔
      Undisturbed (pool.submitConnectTo cfg addr opening) rounds) ∧
    ∀ old : ConnHandle,
      ((∃ e, (pool.reconnectTo old cfg addr opening rounds).2 = some (.error e)) →
        BlamesOwn (pool.submitReconnectTo old cfg addr opening) rounds) ↔
      Undisturbed (pool.submitReconnectTo old cfg addr opening) rounds :=
  ⟨driveOpened_own_iff _ rounds, fun _ => driveOpened_own_iff _ rounds⟩

end Pool

end Turns

/-! ## An end of file on another connection

The first connection is open; while the second one is driven open, the peer of the first one
closes it. -/

attribute [local instance] Sample.rustls Ws.Sample.digest

/-- The pool with one open connection. -/
def oneOpen : Pool := (poolMachine.run (Sample.start 256 fun _ => none) Sample.upgrade).1.pool

/-- The second connection has been submitted. -/
def secondOpened : Pool × Except ConnectionError ConnHandle :=
  oneOpen.submitConnectTo Sample.config Sample.addr Sample.opening

def second : ConnHandle := .fromParts 1 0

/-- The turn in which the first connection reads an end of file. -/
def peerCloses : DriveTurn := ⟨secondOpened.1, [⟨0, 0, 0, []⟩]⟩

theorem peerCloses_not_own : ¬ Pool.BlamesOwn secondOpened [peerCloses.posts] := by
  have handle : secondOpened.2 = .ok second := by decide +kernel
  have ended : (peerCloses.pool.driveTurn second.asU32 peerCloses.posts).2 =
      some (.error .peerClosed) := by decide +kernel
  have entered : peerCloses.entered.2 = .ok () := by decide +kernel
  have failures : peerCloses.failures = [0] := by decide +kernel
  have still : ((peerCloses.pool.driveTurn second.asU32 peerCloses.posts).1.connAt
      second.asU32).map (·.state) = some .connecting := by decide +kernel
  intro own
  have same : secondOpened.1 = peerCloses.pool := by rw [peerCloses]
  have last : secondOpened.1.lastTurn second.asU32 [peerCloses.posts] = some peerCloses := by
    rw [same]
    exact Pool.lastTurn_of_ended peerCloses ended []
  cases own second handle peerCloses last with
  | proactor failed => simp [entered] at failed
  | failed listed =>
      rw [failures] at listed
      revert listed
      decide
  | closed gone =>
      obtain ⟨conn, found, state⟩ := Option.map_eq_some_iff.mp still
      rw [gone conn found] at state
      cases state

theorem connectBlockingTo_fails_for_another :
    poolMachine.Reach Machine.always
        (poolMachine.run (Sample.start 256 fun _ => none) Sample.upgrade).1 ∧
      oneOpen.state Sample.handle = some .isOpen ∧
      (oneOpen.connectBlockingTo Sample.config Sample.addr Sample.opening
        [peerCloses.posts]).2 = some (.error .peerClosed) ∧
      ¬ Pool.BlamesOwn (oneOpen.submitConnectTo Sample.config Sample.addr Sample.opening)
        [peerCloses.posts] :=
  ⟨.run_always (.start (Sample.start_initial _ (by decide))) _, by decide +kernel,
    by decide +kernel, peerCloses_not_own⟩

end Talaris
