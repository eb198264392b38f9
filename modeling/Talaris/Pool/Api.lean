import Talaris.Basis.Performs
import Talaris.Pool.Outgoing

/-!
# The calls of the API

A user of the pool sees whole calls, and the kernel posts completions between them and while
they run.  Every call is a run of the pool machine with the same sink calls, so what holds in
every state that the machine reaches holds between any two calls (`api_calls_are_runs`).
-/

namespace Talaris

open Talaris.Basis
open Talaris.Ws

section Calls

variable [Rustls] [AcceptDigest]

/-- A call of the user, with what the system and the kernel do meanwhile. -/
inductive ApiCall [Rustls] where
  | submitConnectTo (cfg : ConnectionConfig) (addr : SocketAddr) (opening : Opening)
  | connectBlockingTo (cfg : ConnectionConfig) (addr : SocketAddr) (opening : Opening)
      (rounds : List (List Proactor.Post))
  | removeConn (h : ConnHandle)
  | submitReconnectTo (old : ConnHandle) (cfg : ConnectionConfig) (addr : SocketAddr)
      (opening : Opening)
  | reconnectTo (old : ConnHandle) (cfg : ConnectionConfig) (addr : SocketAddr)
      (opening : Opening) (rounds : List (List Proactor.Post))
  | send (h : ConnHandle) (what : SendCall)
  | initiateClose (h : ConnHandle) (code : Nat) (reason : Bytes)
  | pump (kind : PumpKind) (waitNr : Nat) (posts : List Proactor.Post)
  | pumpSpin (kind : PumpKind) (spinIters : Nat) (turns : Nat → PumpCall.SpinPosts)

/-- The pool after a call and the sink calls; `none` if the call has not returned. -/
def Pool.perform (pool : Pool) : ApiCall → Option (Pool × List (ConnHandle × SinkItem))
  | .submitConnectTo cfg addr opening => some ((pool.submitConnectTo cfg addr opening).1, [])
  | .connectBlockingTo cfg addr opening rounds =>
      match pool.connectBlockingTo cfg addr opening rounds with
      | (_, none) => none
      | (pool, some _) => some (pool, [])
  | .removeConn h => some ((pool.removeConn h).1, [])
  | .submitReconnectTo old cfg addr opening =>
      some ((pool.submitReconnectTo old cfg addr opening).1, [])
  | .reconnectTo old cfg addr opening rounds =>
      match pool.reconnectTo old cfg addr opening rounds with
      | (_, none) => none
      | (pool, some _) => some (pool, [])
  | .send h what => some ((pool.sendWith h what.run).1, [])
  | .initiateClose h code reason => some ((pool.initiateClose h code reason).1, [])
  | .pump kind waitNr posts =>
      let call := (PumpCall.pumpFor kind pool waitNr posts).1
      some (call.pool, call.out)
  | .pumpSpin kind spinIters turns =>
      let call := (PumpCall.pumpSpinFor kind pool spinIters turns).1
      some (call.pool, call.out)

/-- What the kernel posts while a call runs. -/
def ApiCall.Posts : ApiCall → Proactor.Post → Prop
  | .connectBlockingTo _ _ _ rounds, post => ∃ posts ∈ rounds, post ∈ posts
  | .reconnectTo _ _ _ _ rounds, post => ∃ posts ∈ rounds, post ∈ posts
  | .pump _ _ posts, post => post ∈ posts
  | .pumpSpin _ _ turns, post => ∃ n, post ∈ (turns n).posts ∨ ∃ m, post ∈ (turns n).more m
  | _, _ => False

/-- A call, or the kernel between two calls. -/
inductive ApiLabel [Rustls] where
  | call (call : ApiCall)
  | post (post : Proactor.Post)
  | spurious (c : Completion)

def apiMachine : Machine Pool ApiLabel (List (ConnHandle × SinkItem)) where
  initial pool := ∃ cfg bundle faults, Pool.new cfg bundle faults = .ok pool
  step pool label :=
    match label with
    | .call call => (pool.perform call).getD (pool, [])
    | .post post => ({ pool with proactor := pool.proactor.post post }, [])
    | .spurious c => ({ pool with proactor := pool.proactor.postSpurious c }, [])

/-- A blocking call returns before the run goes on. -/
def Pool.Returns (pool : Pool) (label : ApiLabel) : Prop :=
  ∀ call, label = .call call → (pool.perform call).isSome = true

instance Pool.Returns.decidable (pool : Pool) (label : ApiLabel) :
    Decidable (pool.Returns label) :=
  match label with
  | .call call => decidable_of_iff ((pool.perform call).isSome = true)
      ⟨fun returned _ same => ApiLabel.call.inj same ▸ returned, fun returns => returns call rfl⟩
  | .post _ | .spurious _ => isTrue fun _ same => by cases same

/-- The steps of the machine that a label may take: the kernel does nothing but what the label
says. -/
def ApiLabel.Uses (label : ApiLabel) : PoolLabel → Prop
  | .post posted => label = .post posted ∨ ∃ call, label = .call call ∧ call.Posts posted
  | .spurious c => label = .spurious c
  | _ => True

/-! ## Phases of a call -/

/-- The phases of a pump or of a round, with what the kernel posts meanwhile. -/
def PoolLabel.Phase (posts : Proactor.Post → Prop) : PoolLabel → Prop
  | .post posted => posts posted
  | .begin | .enter | .drain | .submit _ | .dispatch _ | .poll _ | .driveTarget
  | .driveVerdict => True
  | .spurious _ | .connect .. | .remove _ | .send .. | .close .. | .abandon => False

/-- The machine in the middle of a call. -/
structure System.At (sys : System) (call : PumpCall) : Prop where
  pool : sys.pool = call.pool
  firstErr : sys.firstErr = call.firstErr

/-- The machine takes the call from one point to another. -/
def PumpCall.Along (posts : Proactor.Post → Prop) (call call' : PumpCall) : Prop :=
  ∀ sys : System, sys.At call → ∃ sys' out,
    poolMachine.Performs (PoolLabel.Phase posts) sys sys' out ∧ sys'.At call' ∧
      sys'.driving = sys.driving ∧ call'.out = call.out ++ out

/-- A phase does not look at the sink calls so far. -/
def PumpCall.Frames (f : PumpCall → PumpCall) : Prop :=
  ∀ call : PumpCall, f call =
    { f { call with out := [] } with out := call.out ++ (f { call with out := [] }).out }

namespace PumpCall

variable {posts : Proactor.Post → Prop} {call call' call'' : PumpCall}

theorem Along.refl (call : PumpCall) : call.Along posts call :=
  fun sys at_ => ⟨sys, [], .nil sys, at_, rfl, (List.append_nil _).symm⟩

theorem Along.trans (first : call.Along posts call') (second : call'.Along posts call'') :
    call.Along posts call'' := by
  intro sys start
  obtain ⟨sys₁, out₁, performed₁, at₁, driving₁, outputs₁⟩ := first sys start
  obtain ⟨sys₂, out₂, performed₂, at₂, driving₂, outputs₂⟩ := second sys₁ at₁
  refine ⟨sys₂, out₁ ++ out₂, performed₁.trans performed₂, at₂, driving₂.trans driving₁, ?_⟩
  rw [outputs₂, outputs₁, List.append_assoc]

/-- A label whose step is a phase. -/
theorem along_through (label : PoolLabel) {f : PumpCall → PumpCall} (phase : label.Phase posts)
    (frames : Frames f) (enabled : ∀ sys : System, sys.At call → sys.enabled label = true)
    (acts : ∀ sys : System, ∃ history, sys.act label = { sys with history }.through f) :
    call.Along posts (f call) := by
  intro sys start
  obtain ⟨history, act⟩ := acts sys
  have stepped : poolMachine.step sys label = { sys with history }.through f := by
    rw [← act]
    exact if_pos (enabled sys start)
  have performed : poolMachine.Performs (PoolLabel.Phase posts) sys _ _ := .single label phase sys
  rw [stepped] at performed
  refine ⟨_, _, performed, ⟨?_, ?_⟩, rfl, ?_⟩
  · rw [frames call]
    show (f ⟨sys.pool, sys.firstErr, []⟩).pool = _
    rw [start.pool, start.firstErr]
  · rw [frames call]
    show (f ⟨sys.pool, sys.firstErr, []⟩).firstErr = _
    rw [start.pool, start.firstErr]
  · rw [frames call]
    show call.out ++ _ = call.out ++ (f ⟨sys.pool, sys.firstErr, []⟩).out
    rw [start.pool, start.firstErr]

omit [AcceptDigest] in
theorem submitConnAt_frames (i : Nat) : Frames fun call => call.submitConnAt i := by
  intro call
  dsimp only [submitConnAt]
  cases call.pool.connAt i with
  | none => simp
  | some conn =>
      dsimp only
      obtain ⟨conn₁, proactor₁, sent⟩ := conn.trySubmitSend call.pool.proactor
      cases sent with
      | error e => simp [failConnAndAccount]
      | ok done =>
          dsimp only
          obtain ⟨conn₂, proactor₂, armed⟩ := conn₁.tryRearmMultishot proactor₁
          cases armed <;> simp [failConnAndAccount]

theorem dispatchNext_frames (kind : PumpKind) : Frames (dispatchNext kind) := by
  intro call
  unfold dispatchNext
  dsimp only
  cases call.pool.completionsBuf with
  | nil => simp
  | cons c rest =>
      dsimp only
      cases connForCompletion call.pool.conns c with
      | none => simp
      | some slot =>
          obtain ⟨i, conn⟩ := slot
          dsimp only
          cases runOf kind conn c rest with
          | some after =>
              dsimp only
              generalize conn.batchHandler kind (c :: after) = handled
              obtain ⟨conn', out, result⟩ := handled
              cases result <;> simp [emit, finishConnResult, failConnAndAccount]
          | none =>
              dsimp only
              generalize conn.completionHandler call.pool.proactor kind c = outcome
              obtain ⟨proactor, conn', out, result⟩ := outcome
              cases result <;> simp [emit, finishConnResult, failConnAndAccount]

theorem pollConnAt_frames (i : Nat) : Frames fun call => call.pollConnAt i := by
  intro call
  dsimp only [pollConnAt]
  cases call.pool.connAt i with
  | none => simp
  | some conn =>
      dsimp only
      split
      next => simp
      next =>
        obtain ⟨ws, events, error⟩ := conn.ws.pollAll
        cases error <;> simp [emit, failConnAndAccount]

omit [AcceptDigest] in
theorem drainCompletions_frames : Frames drainCompletions := fun call => by
  simp [drainCompletions]

/-! ### The buffer of completions -/

omit [AcceptDigest] in
@[simp] theorem submitConnAt_buf (call : PumpCall) (i : Nat) :
    (call.submitConnAt i).pool.completionsBuf = call.pool.completionsBuf := by
  unfold submitConnAt
  cases call.pool.connAt i with
  | none => rfl
  | some conn =>
      dsimp only
      obtain ⟨conn₁, proactor₁, sent⟩ := conn.trySubmitSend call.pool.proactor
      cases sent with
      | error e => rfl
      | ok done =>
          dsimp only
          obtain ⟨conn₂, proactor₂, armed⟩ := conn₁.tryRearmMultishot proactor₁
          cases armed <;> rfl

@[simp] theorem pollConnAt_buf (call : PumpCall) (i : Nat) :
    (call.pollConnAt i).pool.completionsBuf = call.pool.completionsBuf := by
  unfold pollConnAt
  cases call.pool.connAt i with
  | none => rfl
  | some conn =>
      dsimp only
      split
      next => rfl
      next =>
        obtain ⟨ws, events, error⟩ := conn.ws.pollAll
        cases error <;> rfl

omit [AcceptDigest] in
@[simp] theorem enter_buf (call : PumpCall)
    (syscall : Proactor → Proactor × Except ProactorError Unit) :
    (call.enter syscall).1.pool.completionsBuf = call.pool.completionsBuf := by
  unfold enter
  split <;> rfl

omit [AcceptDigest] in
theorem finishConnResult_buf (call : PumpCall) (i : Nat) (conn : ConnectionState)
    (result : Except ConnectionError Nat) (wasActive : Bool) :
    (call.finishConnResult i conn result wasActive).pool.completionsBuf =
      call.pool.completionsBuf := by
  cases result <;> rfl

/-- Every turn of the loop takes at least one completion. -/
theorem dispatchNext_buf (kind : PumpKind) (call : PumpCall) :
    (call.dispatchNext kind).pool.completionsBuf.length ≤ call.pool.completionsBuf.length - 1 := by
  unfold dispatchNext
  cases buffered : call.pool.completionsBuf with
  | nil => simp [buffered]
  | cons c rest =>
      dsimp only
      cases connForCompletion call.pool.conns c with
      | none => simp
      | some slot =>
          obtain ⟨i, conn⟩ := slot
          dsimp only
          cases runOf kind conn c rest with
          | some after => simp [finishConnResult_buf, emit]
          | none => simp [finishConnResult_buf, emit]

/-- The loop takes all of them. -/
theorem dispatchConnCompletions_buf (kind : PumpKind) (call : PumpCall) :
    (call.dispatchConnCompletions kind).pool.completionsBuf = [] := by
  have shrinks (n : Nat) (call : PumpCall) :
      ((dispatchNext kind)^[n] call).pool.completionsBuf.length ≤
        call.pool.completionsBuf.length - n := by
    induction n generalizing call with
    | zero => exact Nat.le_refl _
    | succ n ih =>
        rw [Function.iterate_succ_apply]
        have first := call.dispatchNext_buf kind
        have rest := ih (call.dispatchNext kind)
        omega
  have all := shrinks call.pool.completionsBuf.length call
  rw [Nat.sub_self, Nat.le_zero, List.length_eq_zero_iff] at all
  exact all

/-! ### The phases as steps -/

theorem along_submitConnAt (call : PumpCall) (empty : call.pool.completionsBuf = []) (i : Nat) :
    call.Along posts (call.submitConnAt i) := by
  refine along_through (.submit i) trivial (submitConnAt_frames i) (fun sys start => ?_)
    fun sys => ⟨sys.history, rfl⟩
  simp [System.enabled, start.pool, empty]

theorem along_submitConnOps (posts : Proactor.Post → Prop) (call : PumpCall)
    (empty : call.pool.completionsBuf = []) :
    call.Along posts call.submitConnOps ∧ call.submitConnOps.pool.completionsBuf = [] := by
  unfold submitConnOps
  induction List.range call.pool.conns.length generalizing call with
  | nil => exact ⟨.refl call, empty⟩
  | cons i slots ih =>
      obtain ⟨rest, ends⟩ := ih (call.submitConnAt i) ((call.submitConnAt_buf i).trans empty)
      exact ⟨(call.along_submitConnAt empty i).trans rest, ends⟩

theorem along_pollConns (posts : Proactor.Post → Prop) (call : PumpCall)
    (empty : call.pool.completionsBuf = []) :
    call.Along posts call.pollConns ∧ call.pollConns.pool.completionsBuf = [] := by
  unfold pollConns
  induction List.range call.pool.conns.length generalizing call with
  | nil => exact ⟨.refl call, empty⟩
  | cons i slots ih =>
      obtain ⟨rest, ends⟩ := ih (call.pollConnAt i) ((call.pollConnAt_buf i).trans empty)
      refine ⟨Along.trans (along_through (.poll i) trivial (pollConnAt_frames i)
        (fun sys start => ?_) fun sys => ⟨sys.history, rfl⟩) rest, ends⟩
      simp [System.enabled, start.pool, empty]

theorem along_drainCompletions (call : PumpCall) (empty : call.pool.completionsBuf = []) :
    call.Along posts call.drainCompletions := by
  refine along_through .drain trivial drainCompletions_frames (fun sys start => ?_)
    fun sys => ⟨sys.history, rfl⟩
  simp [System.enabled, start.pool, empty]

theorem along_dispatchConnCompletions (kind : PumpKind) (call : PumpCall) :
    call.Along posts (call.dispatchConnCompletions kind) := by
  unfold dispatchConnCompletions
  induction call.pool.completionsBuf.length generalizing call with
  | zero => exact .refl call
  | succ n ih =>
      rw [Function.iterate_succ_apply]
      exact (along_through (.dispatch kind) trivial (dispatchNext_frames kind)
        (fun sys _ => rfl) fun sys => ⟨_, rfl⟩).trans (ih (call.dispatchNext kind))

theorem along_arrive (call : PumpCall) {posted : List Proactor.Post}
    (own : ∀ post ∈ posted, posts post) : call.Along posts (call.arrive posted) := by
  unfold arrive
  induction posted generalizing call with
  | nil => exact .refl call
  | cons post posted ih =>
      have rest := ih { call with pool := { call.pool with proactor := call.pool.proactor.post post } }
        fun other member => own other (List.mem_cons_of_mem _ member)
      intro sys start
      have performed : poolMachine.Performs (PoolLabel.Phase posts) sys _ _ :=
        .single (.post post) (own post List.mem_cons_self) sys
      obtain ⟨sys', out, later, ends, driving, outputs⟩ :=
        rest (poolMachine.step sys (.post post)).1 ⟨by
          show { sys.pool with proactor := sys.pool.proactor.post post } = _
          rw [start.pool], start.firstErr⟩
      exact ⟨sys', out, performed.trans later, ends, driving, outputs⟩

/-- An entry into the kernel that hands it the submissions. -/
theorem along_enter (posts : Proactor.Post → Prop) (call : PumpCall)
    (empty : call.pool.completionsBuf = []) :
    call.Along posts (call.enter Proactor.submit).1 := by
  intro sys start
  have performed : poolMachine.Performs (PoolLabel.Phase posts) sys _ _ :=
    .single .enter trivial sys
  have enabled : sys.enabled .enter = true := by simp [System.enabled, start.pool, empty]
  have stepped : poolMachine.step sys .enter =
      sys.quietly { sys.pool with proactor := sys.pool.proactor.submit.1 } := if_pos enabled
  have entered : (call.enter Proactor.submit).1 =
      { call with pool := { call.pool with proactor := call.pool.proactor.submit.1 } } := by
    unfold enter
    split
    next proactor e same => rw [same]
    next proactor same => rw [same]
  rw [stepped] at performed
  rw [entered]
  refine ⟨_, _, performed, ⟨?_, start.firstErr⟩, rfl, (List.append_nil _).symm⟩
  simp only [System.quietly, start.pool]

theorem along_wait (call : PumpCall) (empty : call.pool.completionsBuf = []) (waitNr : Nat) :
    call.Along posts (call.enter fun proactor => proactor.waitForCqe waitNr).1 := by
  by_cases none : waitNr = 0
  · have same : (call.enter fun proactor => proactor.waitForCqe waitNr).1 = call := by
      simp [enter, Proactor.waitForCqe, none]
    rw [same]
    exact .refl call
  · have same : (fun proactor : Proactor => proactor.waitForCqe waitNr) = Proactor.submit := by
      funext proactor
      exact if_neg none
    rw [same]
    exact call.along_enter posts empty

/-! ### Pumps -/

/-- Where a call goes on, its buffer is empty again. -/
theorem along_submitAndWait (call : PumpCall) (empty : call.pool.completionsBuf = [])
    (waitNr : Nat) {posted : List Proactor.Post} (own : ∀ post ∈ posted, posts post) :
    call.Along posts (call.submitAndWait waitNr posted).1 ∧
      (call.submitAndWait waitNr posted).1.pool.completionsBuf = [] := by
  obtain ⟨submitted, quiet⟩ := call.along_submitConnOps posts empty
  have entered := call.submitConnOps.along_enter posts quiet
  have still : (call.submitConnOps.enter Proactor.submit).1.pool.completionsBuf = [] :=
    (enter_buf _ _).trans quiet
  unfold submitAndWait
  generalize call.submitConnOps.enter Proactor.submit = outcome at entered still
  obtain ⟨call₁, result⟩ := outcome
  cases result with
  | error e => exact ⟨submitted.trans entered, still⟩
  | ok done =>
      have arrived := call₁.along_arrive own
      have empty₁ : (call₁.arrive posted).pool.completionsBuf = [] := still
      refine ⟨(submitted.trans entered).trans (arrived.trans ?_), (enter_buf _ _).trans empty₁⟩
      exact (call₁.arrive posted).along_wait empty₁ waitNr

theorem along_drainConnCompletions (kind : PumpKind) (call : PumpCall)
    (empty : call.pool.completionsBuf = []) {posted : List Proactor.Post}
    (own : ∀ post ∈ posted, posts post) :
    call.Along posts (call.drainConnCompletions kind posted) ∧
      (call.drainConnCompletions kind posted).pool.completionsBuf = [] :=
  ⟨(call.along_arrive own).trans (((call.arrive posted).along_drainCompletions empty).trans
      (along_dispatchConnCompletions kind _)), dispatchConnCompletions_buf kind _⟩

theorem along_pumpFor (kind : PumpKind) (pool : Pool) (empty : pool.completionsBuf = [])
    (waitNr : Nat) {posted : List Proactor.Post} (own : ∀ post ∈ posted, posts post) :
    (start pool).Along posts (pumpFor kind pool waitNr posted).1 ∧
      (pumpFor kind pool waitNr posted).1.pool.completionsBuf = [] := by
  obtain ⟨waited, quiet⟩ := (start pool).along_submitAndWait empty waitNr own
  unfold pumpFor
  generalize (start pool).submitAndWait waitNr posted = outcome at waited quiet
  obtain ⟨call, result⟩ := outcome
  cases result with
  | error e => exact ⟨waited, quiet⟩
  | ok done =>
      have drained := waited.trans ((call.along_drainCompletions quiet).trans
        (along_dispatchConnCompletions kind _))
      have empty' := dispatchConnCompletions_buf kind call.drainCompletions
      dsimp only
      split
      next => exact ⟨drained, empty'⟩
      next =>
        obtain ⟨polled, ends⟩ := along_pollConns posts _ empty'
        exact ⟨drained.trans polled, ends⟩

theorem along_drainPostProgress (kind : PumpKind) {more : Nat → List Proactor.Post}
    (own : ∀ n, ∀ post ∈ more n, posts post) (left : Nat) (call : PumpCall)
    (empty : call.pool.completionsBuf = []) :
    call.Along posts (drainPostProgress kind more left call) ∧
      (drainPostProgress kind more left call).pool.completionsBuf = [] := by
  induction left generalizing call with
  | zero => exact ⟨.refl call, empty⟩
  | succ left ih =>
      obtain ⟨drained, quiet⟩ := call.along_drainConnCompletions kind empty (own left)
      unfold drainPostProgress
      dsimp only
      split
      next => exact ⟨drained, quiet⟩
      next =>
        obtain ⟨rest, ends⟩ := ih _ quiet
        exact ⟨drained.trans rest, ends⟩

theorem along_spinTurn (kind : PumpKind) {turn : SpinPosts} (own : ∀ post ∈ turn.posts, posts post)
    (ownMore : ∀ n, ∀ post ∈ turn.more n, posts post) (call : PumpCall)
    (empty : call.pool.completionsBuf = []) :
    call.Along posts (call.spinTurn kind turn).1 ∧
      (call.spinTurn kind turn).1.pool.completionsBuf = [] := by
  obtain ⟨drained, quiet⟩ := call.along_drainConnCompletions kind empty own
  unfold spinTurn
  dsimp only
  split
  next =>
    dsimp only
    split
    next => exact ⟨drained, quiet⟩
    next =>
      obtain ⟨rest, ends⟩ := along_drainPostProgress kind ownMore
        (call.drainConnCompletions kind turn.posts).pool.postProgressSpinIters _ quiet
      exact ⟨drained.trans rest, ends⟩
  next =>
    obtain ⟨polled, ends⟩ := along_pollConns posts _ quiet
    exact ⟨drained.trans polled, ends⟩

theorem along_spin (kind : PumpKind) {turns : Nat → SpinPosts}
    (own : ∀ n, ∀ post ∈ (turns n).posts, posts post)
    (ownMore : ∀ n m, ∀ post ∈ (turns n).more m, posts post) (left : Nat) (call : PumpCall)
    (empty : call.pool.completionsBuf = []) :
    call.Along posts (spin kind turns left call).1 ∧
      (spin kind turns left call).1.pool.completionsBuf = [] := by
  induction left generalizing call with
  | zero => exact ⟨.refl call, empty⟩
  | succ left ih =>
      obtain ⟨turned, quiet⟩ := call.along_spinTurn kind (own left) (ownMore left) empty
      unfold spin
      generalize call.spinTurn kind (turns left) = outcome at turned quiet
      obtain ⟨call₁, progressed⟩ := outcome
      dsimp only
      split
      next => exact ⟨turned, quiet⟩
      next =>
        obtain ⟨rest, ends⟩ := ih call₁ quiet
        exact ⟨turned.trans rest, ends⟩

theorem along_pumpSpinFor (kind : PumpKind) (pool : Pool) (empty : pool.completionsBuf = [])
    (spinIters : Nat) {turns : Nat → SpinPosts} (own : ∀ n, ∀ post ∈ (turns n).posts, posts post)
    (ownMore : ∀ n m, ∀ post ∈ (turns n).more m, posts post) :
    (start pool).Along posts (pumpSpinFor kind pool spinIters turns).1 ∧
      (pumpSpinFor kind pool spinIters turns).1.pool.completionsBuf = [] := by
  obtain ⟨submitted, quiet⟩ := (start pool).along_submitConnOps posts empty
  have entered := submitted.trans ((start pool).submitConnOps.along_enter posts quiet)
  have still : ((start pool).submitConnOps.enter Proactor.submit).1.pool.completionsBuf = [] :=
    (enter_buf _ _).trans quiet
  unfold pumpSpinFor
  generalize (start pool).submitConnOps.enter Proactor.submit = outcome at entered still
  obtain ⟨call, result⟩ := outcome
  cases result with
  | error e => exact ⟨entered, still⟩
  | ok done =>
      obtain ⟨spun, ends⟩ := along_spin kind own ownMore (spinIters + 1) call still
      exact ⟨entered.trans spun, ends⟩

theorem along_driveOpenOnce (pool : Pool) (empty : pool.completionsBuf = []) (waitNr : Nat)
    {posted : List Proactor.Post} (own : ∀ post ∈ posted, posts post) :
    (start pool).Along posts (driveOpenOnce pool waitNr posted).1 ∧
      (driveOpenOnce pool waitNr posted).1.pool.completionsBuf = [] := by
  obtain ⟨waited, quiet⟩ := (start pool).along_submitAndWait empty waitNr own
  unfold driveOpenOnce
  generalize (start pool).submitAndWait waitNr posted = outcome at waited quiet
  obtain ⟨call, result⟩ := outcome
  cases result with
  | error e => exact ⟨waited, quiet⟩
  | ok done =>
      exact ⟨waited.trans ((call.along_drainCompletions quiet).trans
        (along_dispatchConnCompletions .events _)), dispatchConnCompletions_buf .events _⟩

end PumpCall

/-! ## Completions of a general pump -/

omit [Rustls] in
/-- The general pump only buffers what it receives. -/
theorem Reading.takeAll_events (source : ChunkSource) (recvMeta : DataEventMeta)
    (chunks : List Bytes) (reading : Reading) :
    (reading.takeAll .events source recvMeta chunks).out = reading.out := by
  unfold takeAll
  induction chunks generalizing reading with
  | nil => rfl
  | cons chunk chunks ih =>
      rw [List.foldl_cons, ih]
      unfold take
      split
      next => rfl
      next => exact List.append_nil _

namespace ConnectionState

theorem ingest_events (recvMeta : DataEventMeta) (slices : List Bytes) (reading : TlsReading) :
    (slices.foldl (TlsReading.ingest .events recvMeta) reading).reading.out =
      reading.reading.out := by
  induction slices generalizing reading with
  | nil => rfl
  | cons slice slices ih =>
      rw [List.foldl_cons, ih]
      unfold TlsReading.ingest
      split
      next => rfl
      next => exact Reading.takeAll_events _ _ _ _

theorem recvTls_events (conn : ConnectionState) (recvMeta : DataEventMeta) (tls : TlsAdapter)
    (slices : List (Nat × Bytes)) : (conn.recvTls .events recvMeta tls slices).out = [] := by
  have silent := ingest_events recvMeta (slices.map Prod.snd)
    ⟨tls, conn.tlsPendingOut, Reading.start conn.toReader, none⟩
  unfold recvTls
  dsimp only
  generalize (slices.map Prod.snd).foldl _ _ = ingested at silent
  have nothing : ingested.reading.out = [] := silent
  cases ingested.error with
  | some e => exact nothing
  | none =>
      dsimp only
      split
      next => exact nothing
      next =>
        split
        next => exact nothing
        next => exact nothing

theorem onRecvCqeFor_events (conn : ConnectionState) (c : Completion) :
    (conn.onRecvCqeFor .events c).out = [] := by
  unfold onRecvCqeFor
  dsimp only
  split
  next => rfl
  next => rfl
  next => split <;> rfl
  next => rfl
  next => rfl
  next bid n _ =>
    unfold recvBytes
    dsimp only
    split
    next => rfl
    next ring =>
      split
      next => rfl
      next slices =>
        split
        next tls => exact recvTls_events _ _ _ _
        next => exact Reading.takeAll_events _ _ _ _

theorem handleCompletionFor_events (conn : ConnectionState) (proactor : Proactor)
    (c : Completion) : (conn.handleCompletionFor proactor .events c).2.out = [] := by
  unfold handleCompletionFor
  split
  next => rfl
  next kind _ =>
    split
    next => rfl
    next =>
      cases kind with
      | recv =>
          simp only [dispatchCompletion, recvHandler_eq]
          exact conn.onRecvCqeFor_events c
      | connect | send | close | nop => rfl

end ConnectionState

namespace PumpCall

theorem dispatchNext_events (call : PumpCall) : (call.dispatchNext .events).out = call.out := by
  unfold dispatchNext
  cases call.pool.completionsBuf with
  | nil => rfl
  | cons c rest =>
      dsimp only
      cases connForCompletion call.pool.conns c with
      | none => rfl
      | some slot =>
          obtain ⟨i, conn⟩ := slot
          have silent := conn.handleCompletionFor_events call.pool.proactor c
          have alone : runOf .events conn c rest = none := rfl
          simp only [alone, finishConnResult_out, emit, ConnectionState.completionHandler_eq,
            silent, List.map_nil, List.append_nil]

theorem dispatchConnCompletions_events (call : PumpCall) :
    (call.dispatchConnCompletions .events).out = call.out := by
  unfold dispatchConnCompletions
  induction call.pool.completionsBuf.length generalizing call with
  | zero => rfl
  | succ n ih => rw [Function.iterate_succ_apply, ih, call.dispatchNext_events]

omit [AcceptDigest] in
theorem submitAndWait_out (call : PumpCall) (waitNr : Nat) (posted : List Proactor.Post) :
    (call.submitAndWait waitNr posted).1.out = call.out := by
  have quiet (slots : List Nat) (call : PumpCall) :
      (slots.foldl submitConnAt call).out = call.out := by
    induction slots generalizing call with
    | nil => rfl
    | cons i slots ih =>
        rw [List.foldl_cons, ih]
        unfold submitConnAt
        split
        next => rfl
        next conn _ =>
          dsimp only
          split
          next => rfl
          next => split <;> rfl
  have entering (call : PumpCall) (syscall : Proactor → Proactor × Except ProactorError Unit) :
      (call.enter syscall).1.out = call.out := by
    unfold enter
    split <;> rfl
  have submitted : (call.submitConnOps.enter Proactor.submit).1.out = call.out :=
    (entering _ _).trans (quiet _ call)
  unfold submitAndWait
  generalize call.submitConnOps.enter Proactor.submit = outcome at submitted
  obtain ⟨call₁, result⟩ := outcome
  cases result with
  | error e => exact submitted
  | ok done => exact (entering _ _).trans submitted

/-- A round of a blocking call does not call the sink. -/
theorem driveOpenOnce_out (pool : Pool) (waitNr : Nat) (posted : List Proactor.Post) :
    (driveOpenOnce pool waitNr posted).1.out = [] := by
  have waited : ((start pool).submitAndWait waitNr posted).1.out = [] :=
    (start pool).submitAndWait_out waitNr posted
  unfold driveOpenOnce
  generalize (start pool).submitAndWait waitNr posted = outcome at waited
  obtain ⟨call, result⟩ := outcome
  cases result with
  | error e => exact waited
  | ok done => exact (dispatchConnCompletions_events _).trans waited

omit [AcceptDigest] in
theorem verdict_ok {call : PumpCall} (fine : call.verdict = .ok ()) : call.firstErr = none := by
  unfold verdict at fine
  split at fine
  next => cases fine
  next none => exact none

end PumpCall

/-! ## Blocking calls -/

/-- The phases of a call seat nobody: who is in the slot was there before. -/
theorem PoolLabel.Phase.keeps_slot {posts : Proactor.Post → Prop} {sys : System}
    {label : PoolLabel} (phase : label.Phase posts) {i : Nat} {h : ConnHandle}
    (own : ∀ conn, sys.pool.connAt i = some conn → ConnHandle.fromConn conn = h)
    (slots : Slots sys.pool sys.handles) :
    ∀ conn, (poolMachine.step sys label).1.pool.connAt i = some conn →
      ConnHandle.fromConn conn = h := by
  intro conn here
  have move := sys.step_move label
  generalize poolMachine.step sys label = next at move here
  obtain ⟨sys', out⟩ := next
  cases move with
  | kernel => exact own conn here
  | step _ _ found _ _ _ _ stepped =>
      rcases Pool.connAt_update_cases found here with ⟨rfl, rfl⟩ | ⟨-, there⟩
      · rw [← own _ found]
        exact congrArg (fun endpoint => ConnHandle.mk endpoint.identity.token)
          stepped.effect.endpoint
      · exact own conn there
  | opened => cases phase
  | retired _ _ found =>
      rw [Pool.retireSlot_eq found (slots.occupant _ _ found).2] at here
      have at_id := (slots.occupant _ _ found).1
      subst at_id
      exact own conn (Pool.connAt_vacated_cases found here).2

/-- The machine between two rounds of a blocking call for `h`. -/
structure System.Driven (sys : System) (pool : Pool) (h : ConnHandle) (driving : Option Nat) :
    Prop where
  reached : poolMachine.Reach Machine.always sys
  stands : sys.pool = pool
  empty : pool.completionsBuf = []
  driving : sys.driving = driving
  own : ∀ conn, sys.pool.connAt h.asU32 = some conn → ConnHandle.fromConn conn = h

/-- The connection that is still driven after a turn with this result. -/
def drivenAfter (connId : Nat) : Option (Except ConnectionError Unit) → Option Nat
  | some (.ok ()) => none
  | some (.error _) | none => some connId

theorem System.Driven.performed {sys sys' : System} {pool pool' : Pool} {h : ConnHandle}
    {driving driving' : Option Nat} {posts : Proactor.Post → Prop}
    {out : List (ConnHandle × SinkItem)} (driven : sys.Driven pool h driving)
    (performed : poolMachine.Performs (PoolLabel.Phase posts) sys sys' out)
    (pool_eq : sys'.pool = pool') (empty : pool'.completionsBuf = [])
    (driving_eq : sys'.driving = driving') : sys'.Driven pool' h driving' where
  reached := performed.reach driven.reached
  stands := pool_eq
  empty := empty
  driving := driving_eq
  own := by
    have kept : poolMachine.Reach Machine.always sys' ∧
        ∀ conn, sys'.pool.connAt h.asU32 = some conn → ConnHandle.fromConn conn = h := by
      apply performed.keeps _ ⟨driven.reached, driven.own⟩
      intro sys label phase inv
      exact ⟨.next label inv.1 trivial, phase.keeps_slot inv.2 (System.slots_reach inv.1)⟩
    exact kept.2

/-- A turn of the loop. -/
theorem System.Driven.turn {sys : System} {pool : Pool} {h : ConnHandle}
    {posts : Proactor.Post → Prop} (driven : sys.Driven pool h (some h.asU32))
    {posted : List Proactor.Post} (own : ∀ post ∈ posted, posts post) :
    ∃ sys', poolMachine.Performs (PoolLabel.Phase posts) sys sys' [] ∧
      sys'.Driven (pool.driveTurn h.asU32 posted).1 h
        (drivenAfter h.asU32 (pool.driveTurn h.asU32 posted).2) := by
  obtain ⟨reached, rfl, empty, driving, mine⟩ := driven
  have begun : poolMachine.step sys .begin = ({ sys with firstErr := none }, []) :=
    if_pos (by simp [System.enabled, empty])
  have first : poolMachine.Performs (PoolLabel.Phase posts) sys _ _ :=
    .single .begin trivial sys
  rw [begun] at first
  obtain ⟨round, quiet⟩ := PumpCall.along_driveOpenOnce sys.pool empty 1 own
  obtain ⟨sys₁, out, performed, at_, same, outputs⟩ := round { sys with firstErr := none } ⟨rfl, rfl⟩
  have silent := PumpCall.driveOpenOnce_out sys.pool 1 posted
  rw [silent] at outputs
  obtain rfl : out = [] := outputs.symm
  have before := first.trans performed
  have driven₁ : sys₁.Driven _ h (some h.asU32) :=
    System.Driven.performed ⟨reached, rfl, empty, driving, mine⟩ before at_.pool quiet
      (same.trans driving)
  have noError : (PumpCall.driveOpenOnce sys.pool 1 posted).2 = .ok () →
      (PumpCall.driveOpenOnce sys.pool 1 posted).1.firstErr = none := by
    unfold PumpCall.driveOpenOnce
    split
    next => simp
    next => exact PumpCall.verdict_ok
  unfold Pool.driveTurn
  generalize PumpCall.driveOpenOnce sys.pool 1 posted = outcome at at_ quiet noError driven₁
  obtain ⟨call, result⟩ := outcome
  cases result with
  | error e => exact ⟨sys₁, before, driven₁⟩
  | ok done =>
      have fine : sys₁.firstErr = none := at_.firstErr.trans (noError rfl)
      have finished (sys₂ : System) (buf : sys₂.pool.completionsBuf = []) (clean : sys₂.firstErr = none) :
          sys₂.roundOver = true := by
        simp [System.roundOver, buf, clean]
      have targeted : poolMachine.step sys₁ .driveTarget =
          sys₁.quietly (sys₁.pool.driveTargetHandshakeEvent h.asU32).1 := by
        refine (if_pos (finished sys₁ (driven₁.stands ▸ quiet) fine)).trans ?_
        simp only [System.act, driven₁.driving]
      have second : poolMachine.Performs (PoolLabel.Phase posts) sys₁ _ _ :=
        .single .driveTarget trivial sys₁
      rw [targeted, driven₁.stands] at second
      have kept : (call.pool.driveTargetHandshakeEvent h.asU32).1.completionsBuf = [] := by
        unfold Pool.driveTargetHandshakeEvent
        split
        next => exact quiet
        next =>
          split
          next => exact quiet
          next =>
            dsimp only
            split
            next => exact quiet
            next => exact quiet
      have driven₂ := driven₁.performed second rfl kept driven₁.driving
      have between := before.trans second
      dsimp only
      generalize call.pool.driveTargetHandshakeEvent h.asU32 = outcome at kept driven₂ between
      obtain ⟨pool₂, result⟩ := outcome
      cases result with
      | error e => exact ⟨_, between, driven₂⟩
      | ok done =>
          have judged : poolMachine.step (sys₁.quietly pool₂).1 .driveVerdict =
              ((sys₁.quietly pool₂).1.endDrive h.asU32, []) := by
            refine (if_pos (finished (sys₁.quietly pool₂).1 kept fine)).trans ?_
            simp only [System.act, driven₂.driving]
          have third : poolMachine.Performs (PoolLabel.Phase posts) (sys₁.quietly pool₂).1 _ _ :=
            .single .driveVerdict trivial _
          rw [judged] at third
          have still : (pool₂.driveVerdict h.asU32).1.completionsBuf = [] := by
            unfold Pool.driveVerdict
            split
            next => exact kept
            next => exact kept
          have ends : ((sys₁.quietly pool₂).1.endDrive h.asU32).pool =
                (pool₂.driveVerdict h.asU32).1 ∧
              ((sys₁.quietly pool₂).1.endDrive h.asU32).driving =
                drivenAfter h.asU32 (pool₂.driveVerdict h.asU32).2 := by
            show (System.endDrive ⟨pool₂, sys₁.firstErr, sys₁.driving, sys₁.history⟩ h.asU32).pool =
                _ ∧ (System.endDrive ⟨pool₂, sys₁.firstErr, sys₁.driving, sys₁.history⟩
                  h.asU32).driving = _
            unfold System.endDrive
            dsimp only
            generalize pool₂.driveVerdict h.asU32 = verdict
            obtain ⟨pool₃, ending⟩ := verdict
            rcases ending with _ | ⟨e | done⟩
            · exact ⟨rfl, driven₁.driving⟩
            · exact ⟨rfl, driven₁.driving⟩
            · exact ⟨rfl, rfl⟩
          exact ⟨_, between.trans third, driven₂.performed third ends.1 still ends.2⟩

/-- The loop of a blocking call. -/
theorem System.Driven.loop {sys : System} {pool : Pool} {h : ConnHandle}
    {posts : Proactor.Post → Prop} (driven : sys.Driven pool h (some h.asU32))
    (rounds : List (List Proactor.Post)) (own : ∀ posted ∈ rounds, ∀ post ∈ posted, posts post) :
    ∃ sys', poolMachine.Performs (PoolLabel.Phase posts) sys sys' [] ∧
      sys'.Driven (pool.driveConnUntilOpen h.asU32 rounds).1 h
        (drivenAfter h.asU32 (pool.driveConnUntilOpen h.asU32 rounds).2) := by
  induction rounds generalizing sys pool with
  | nil => exact ⟨sys, .nil sys, driven⟩
  | cons posted rounds ih =>
      obtain ⟨sys₁, first, driven₁⟩ := driven.turn (own posted List.mem_cons_self)
      unfold Pool.driveConnUntilOpen
      generalize pool.driveTurn h.asU32 posted = outcome at driven₁
      obtain ⟨pool₁, result⟩ := outcome
      cases result with
      | some ending => exact ⟨sys₁, first, driven₁⟩
      | none =>
          obtain ⟨sys₂, rest, driven₂⟩ := ih driven₁ fun later member =>
            own later (List.mem_cons_of_mem _ member)
          exact ⟨sys₂, first.trans rest, driven₂⟩

/-! ## Calls as runs -/

/-- The machine between two calls. -/
structure System.Between (pool : Pool) (sys : System) : Prop where
  reached : poolMachine.Reach Machine.always sys
  idle : sys.idle = true
  stands : sys.pool = pool

omit [AcceptDigest] in
theorem System.idle_iff {sys : System} :
    sys.idle = true ↔ sys.pool.completionsBuf = [] ∧ sys.driving = none := by
  simp [System.idle]

/-- Only a drain fills the buffer, and only a blocking call drives a connection. -/
theorem System.Between.step {pool : Pool} {sys : System} (between : sys.Between pool)
    (label : PoolLabel) (other : label ≠ .drain)
    (free : ∀ cfg addr opening, label ≠ .connect cfg addr opening true) :
    (poolMachine.step sys label).1.Between (poolMachine.step sys label).1.pool := by
  refine ⟨.next label between.reached trivial, ?_, rfl⟩
  obtain ⟨empty, undriven⟩ := System.idle_iff.mp between.idle
  have slots := System.slots_reach between.reached
  have move := sys.step_move label
  generalize poolMachine.step sys label = next at move ⊢
  obtain ⟨sys', out⟩ := next
  rw [System.idle_iff]
  cases move with
  | kernel _ driving moved kept =>
      refine ⟨?_, by simpa [undriven] using kept⟩
      cases moved with
      | same | posted | spurious | entered => exact empty
      | drained => exact absurd rfl other
      | dropped _ _ _ buffered =>
          rw [empty] at buffered
          cases buffered
  | step _ driving _ split _ _ _ _ kept =>
      rw [empty] at split
      exact ⟨(List.append_eq_nil_iff.mp split.symm).2, by simpa [undriven] using kept⟩
  | opened cfg addr opening blocking =>
      cases blocking with
      | true => exact absurd rfl (free cfg addr opening)
      | false =>
          show (sys.openConn cfg addr opening false).pool.completionsBuf = [] ∧
            (sys.openConn cfg addr opening false).driving = none
          rcases System.openConn_cases slots cfg addr opening false with ⟨_, _, _, -, -, same⟩ |
            ⟨_, _, _, _, _, _, -, -, -, -, -, -, -, -, same⟩
          · rw [same]
            exact ⟨empty, undriven⟩
          · rw [same]
            exact ⟨empty, rfl⟩
  | retired driving _ found _ kept =>
      rw [Pool.retireSlot_eq found (slots.occupant _ _ found).2]
      exact ⟨empty, by simpa [undriven] using kept⟩

/-- A call that is one step. -/
theorem System.Between.single {pool pool' : Pool} {sys : System} (between : sys.Between pool)
    {uses : PoolLabel → Prop} (label : PoolLabel) (used : uses label) (other : label ≠ .drain)
    (free : ∀ cfg addr opening, label ≠ .connect cfg addr opening true)
    (out : (poolMachine.step sys label).2 = [])
    (same : (poolMachine.step sys label).1.pool = pool') :
    ∃ sys', poolMachine.Performs uses sys sys' [] ∧ sys'.Between pool' := by
  have performed : poolMachine.Performs uses sys _ _ := .single label used sys
  rw [out] at performed
  exact ⟨_, performed, same ▸ between.step label other free⟩

/-- A pump call, from its first phase to its last. -/
theorem System.Between.pumps {pool : Pool} {sys : System} (between : sys.Between pool)
    {posts : Proactor.Post → Prop} {uses : PoolLabel → Prop}
    (phases : ∀ label, PoolLabel.Phase posts label → uses label) {call : PumpCall}
    (along : (PumpCall.start pool).Along posts call) (empty : call.pool.completionsBuf = []) :
    ∃ sys', poolMachine.Performs uses sys sys' call.out ∧ sys'.Between call.pool := by
  obtain ⟨reached, idle, rfl⟩ := between
  obtain ⟨quiet, undriven⟩ := System.idle_iff.mp idle
  have begun : poolMachine.step sys .begin = ({ sys with firstErr := none }, []) :=
    if_pos (by simp [System.enabled, quiet])
  have first : poolMachine.Performs (PoolLabel.Phase posts) sys _ _ :=
    .single .begin trivial sys
  rw [begun] at first
  obtain ⟨sys', out, performed, at_, same, outputs⟩ := along { sys with firstErr := none } ⟨rfl, rfl⟩
  obtain rfl : call.out = out := outputs
  have all := first.trans performed
  refine ⟨sys', all.mono phases, all.reach reached, ?_, at_.pool⟩
  exact System.idle_iff.mpr ⟨at_.pool ▸ empty, same.trans undriven⟩

/-- A blocking call that has returned. -/
theorem System.Between.drives {pool : Pool} {sys : System} (between : sys.Between pool)
    {posts : Proactor.Post → Prop} {uses : PoolLabel → Prop}
    (phases : ∀ label, PoolLabel.Phase posts label → uses label) (abandons : uses .abandon)
    (connects : ∀ cfg addr opening, uses (.connect cfg addr opening true)) (cfg : ConnectionConfig)
    (addr : SocketAddr) (opening : Opening) (rounds : List (List Proactor.Post))
    (own : ∀ posted ∈ rounds, ∀ post ∈ posted, posts post)
    {pool' : Pool} {result : Except ConnectionError ConnHandle}
    (returned : Pool.driveOpened (pool.submitConnectTo cfg addr opening) rounds =
      (pool', some result)) :
    ∃ sys', poolMachine.Performs uses sys sys' [] ∧ sys'.Between pool' := by
  obtain ⟨reached, idle, rfl⟩ := between
  obtain ⟨empty, undriven⟩ := System.idle_iff.mp idle
  have slots := System.slots_reach reached
  have opened : poolMachine.step sys (.connect cfg addr opening true) =
      (sys.openConn cfg addr opening true, []) := if_pos idle
  have first : poolMachine.Performs uses sys _ _ :=
    .single (.connect cfg addr opening true) (connects cfg addr opening) sys
  rw [opened] at first
  rcases System.openConn_cases slots cfg addr opening true with ⟨_, _, e, -, refused, same⟩ |
    ⟨slot, fresh, conn, rest, bgids, proactor, stock, -, -, free, -, -, -, accepted, same⟩
  · rw [refused] at returned
    rw [same] at first
    obtain ⟨rfl, -⟩ := Prod.mk.inj returned
    exact ⟨_, first, first.reach reached, System.idle_iff.mpr ⟨empty, undriven⟩, rfl⟩
  · rw [accepted] at returned
    rw [same] at first
    have stocked := slots.stocked stock
    have inside := (stocked.freeVacant conn.identity.connId (by simp [free])).1
    have slotId : (ConnHandle.fromConn conn).asU32 = conn.identity.connId := by
      have below := stocked.small
      exact tokenConnId_encode (by omega)
    have driven : System.Driven _ ((sys.pool.stocked slot fresh).occupied conn proactor)
        (ConnHandle.fromConn conn) (some (ConnHandle.fromConn conn).asU32) :=
      { reached := first.reach reached
        stands := rfl
        empty := empty
        driving := congrArg some slotId.symm
        own := by
          intro conn' here
          rw [slotId] at here
          rcases Pool.connAt_occupied_cases inside here with ⟨-, rfl⟩ | ⟨other, -⟩
          · rfl
          · exact absurd rfl other }
    obtain ⟨sys₁, performed, driven₁⟩ := driven.loop rounds own
    have before := first.trans (performed.mono phases)
    unfold Pool.driveOpened at returned
    dsimp only at returned
    generalize ((sys.pool.stocked slot fresh).occupied conn proactor).driveConnUntilOpen
      (ConnHandle.fromConn conn).asU32 rounds = outcome at returned driven₁
    obtain ⟨pool₁, ending⟩ := outcome
    rcases ending with _ | ⟨e | done⟩
    · cases returned
    · -- the new connection is taken out of its slot
      obtain ⟨rfl, -⟩ := Prod.mk.inj returned
      have last : poolMachine.Performs uses sys₁ _ _ := .single .abandon abandons sys₁
      have stands₁ : sys₁.pool = pool₁ := driven₁.stands
      have empty₁ : sys₁.pool.completionsBuf = [] := driven₁.stands ▸ driven₁.empty
      have enabled : sys₁.enabled .abandon = true := by
        show sys₁.pool.completionsBuf.isEmpty = true
        rw [empty₁]
        rfl
      have driving : sys₁.driving = some (ConnHandle.fromConn conn).asU32 := driven₁.driving
      have slots₁ := System.slots_reach driven₁.reached
      have stepped : (poolMachine.step sys₁ .abandon).2 = [] ∧
          (poolMachine.step sys₁ .abandon).1.driving = none ∧
          (poolMachine.step sys₁ .abandon).1.pool =
            (pool₁.retireSlot (ConnHandle.fromConn conn).asU32
              (ConnHandle.fromConn conn).generation).1 ∧
          (poolMachine.step sys₁ .abandon).1.pool.completionsBuf = [] := by
        have act : poolMachine.step sys₁ .abandon = sys₁.act .abandon := if_pos enabled
        rw [act]
        simp only [System.act, driving]
        cases found : sys₁.pool.connAt (ConnHandle.fromConn conn).asU32 with
        | none =>
            refine ⟨rfl, rfl, ?_, empty₁⟩
            simp only [Pool.retireSlot, ← stands₁, found]
        | some dead =>
            obtain ⟨id, current⟩ := slots₁.occupant _ _ found
            have generation : (ConnHandle.fromConn conn).generation = dead.identity.generation := by
              have inside := Pool.connAt_lt found
              have below := slots₁.small
              rw [← driven₁.own dead found]
              exact tokenGeneration_encode (by omega) (slots₁.bounded _ _ current)
            refine ⟨rfl, rfl, by rw [generation, stands₁], ?_⟩
            show (sys₁.pool.retireSlot _ dead.identity.generation).1.completionsBuf = []
            rw [Pool.retireSlot_eq found current]
            exact empty₁
      obtain ⟨silent, undriven', stands, empty'⟩ := stepped
      rw [silent] at last
      exact ⟨_, before.trans last, last.reach driven₁.reached,
        System.idle_iff.mpr ⟨empty', undriven'⟩, stands⟩
    · obtain ⟨rfl, -⟩ := Prod.mk.inj returned
      exact ⟨sys₁, before, driven₁.reached,
        System.idle_iff.mpr ⟨driven₁.stands ▸ driven₁.empty, driven₁.driving⟩, driven₁.stands⟩

omit [AcceptDigest] in
/-- The phases of a call use what the kernel posts while it runs. -/
theorem ApiCall.uses_phase (call : ApiCall) (label : PoolLabel)
    (phase : PoolLabel.Phase call.Posts label) : (ApiLabel.call call).Uses label := by
  cases label with
  | post posted => exact .inr ⟨call, rfl, phase⟩
  | spurious => cases phase
  | _ => trivial

/-- A call that is one step of the user. -/
theorem System.Between.calls {pool : Pool} {sys : System} (between : sys.Between pool)
    {uses : PoolLabel → Prop} (label : PoolLabel) (used : uses label) (other : label ≠ .drain)
    (free : ∀ cfg addr opening, label ≠ .connect cfg addr opening true)
    (enabled : sys.idle = true → sys.enabled label = true) {pool' : Pool}
    (acts : (sys.act label).1.pool = pool' ∧ (sys.act label).2 = []) :
    ∃ sys', poolMachine.Performs uses sys sys' [] ∧ sys'.Between pool' := by
  have stepped : poolMachine.step sys label = sys.act label := if_pos (enabled between.idle)
  exact between.single label used other free (stepped ▸ acts.2) (stepped ▸ acts.1)

theorem System.Between.opens {pool : Pool} {sys : System} (between : sys.Between pool)
    {uses : PoolLabel → Prop} (cfg : ConnectionConfig) (addr : SocketAddr) (opening : Opening)
    (used : uses (.connect cfg addr opening false)) :
    ∃ sys', poolMachine.Performs uses sys sys' [] ∧
      sys'.Between (pool.submitConnectTo cfg addr opening).1 := by
  refine between.calls (.connect cfg addr opening false) used (by simp) (by simp) id ⟨?_, rfl⟩
  rw [← between.stands]
  show (sys.openConn cfg addr opening false).pool = _
  unfold System.openConn
  generalize sys.pool.submitConnectTo cfg addr opening = opened
  obtain ⟨pool', e | h⟩ := opened <;> rfl

theorem System.Between.removes {pool : Pool} {sys : System} (between : sys.Between pool)
    {uses : PoolLabel → Prop} (h : ConnHandle) (used : uses (.remove h)) :
    ∃ sys', poolMachine.Performs uses sys sys' [] ∧ sys'.Between (pool.removeConn h).1 :=
  between.calls (.remove h) used (by simp) (by simp) id
    ⟨congrArg (fun pool => (Pool.removeConn pool h).1) between.stands, rfl⟩

theorem api_implements :
    poolMachine.Implements apiMachine Pool.Returns ApiLabel.Uses fun pool sys =>
      sys.Between pool := by
  constructor
  intro pool sys label between returns
  cases label with
  | post post =>
      refine between.single (.post post) (.inl rfl) (by simp) (by simp) rfl ?_
      exact congrArg (fun pool : Pool => { pool with proactor := pool.proactor.post post })
        between.stands
  | spurious c =>
      refine between.single (.spurious c) rfl (by simp) (by simp) rfl ?_
      exact congrArg (fun pool : Pool => { pool with proactor := pool.proactor.postSpurious c })
        between.stands
  | call call =>
      have empty : pool.completionsBuf = [] :=
        between.stands ▸ (System.idle_iff.mp between.idle).1
      have answered := returns call rfl
      have phases := call.uses_phase
      show ∃ sys', poolMachine.Performs _ sys sys' ((pool.perform call).getD (pool, [])).2 ∧
        sys'.Between ((pool.perform call).getD (pool, [])).1
      cases call with
      | submitConnectTo cfg addr opening => exact between.opens cfg addr opening trivial
      | removeConn h => exact between.removes h trivial
      | submitReconnectTo old cfg addr opening =>
          let label := ApiLabel.call (.submitReconnectTo old cfg addr opening)
          have removed : ∃ sys₁, poolMachine.Performs label.Uses sys sys₁ [] ∧
              sys₁.Between (pool.removeConn old).1 := between.removes old trivial
          obtain ⟨sys₁, removed, between₁⟩ := removed
          show ∃ sys', poolMachine.Performs label.Uses sys sys' [] ∧
            sys'.Between (pool.submitReconnectTo old cfg addr opening).1
          unfold Pool.submitReconnectTo
          generalize pool.removeConn old = outcome at between₁
          obtain ⟨pool₁, e | done⟩ := outcome
          · exact ⟨sys₁, removed, between₁⟩
          · have opened : ∃ sys₂, poolMachine.Performs label.Uses sys₁ sys₂ [] ∧
                sys₂.Between (pool₁.submitConnectTo cfg addr opening).1 :=
              between₁.opens cfg addr opening trivial
            obtain ⟨sys₂, opened, between₂⟩ := opened
            exact ⟨sys₂, removed.trans opened, between₂⟩
      | connectBlockingTo cfg addr opening rounds =>
          cases returned : Pool.driveOpened (pool.submitConnectTo cfg addr opening) rounds with
          | mk pool' result =>
              cases result with
              | none => simp [Pool.perform, Pool.connectBlockingTo, returned] at answered
              | some result =>
                  have same : pool.perform (.connectBlockingTo cfg addr opening rounds) =
                      some (pool', []) := by
                    simp only [Pool.perform, Pool.connectBlockingTo, returned]
                  rw [same]
                  exact between.drives phases trivial (fun _ _ _ => trivial) cfg addr opening rounds
                    (fun posted member post own => ⟨posted, member, own⟩) returned
      | reconnectTo old cfg addr opening rounds =>
          let label := ApiLabel.call (.reconnectTo old cfg addr opening rounds)
          have removed : ∃ sys₁, poolMachine.Performs label.Uses sys sys₁ [] ∧
              sys₁.Between (pool.removeConn old).1 := between.removes old trivial
          obtain ⟨sys₁, removed, between₁⟩ := removed
          cases outcome : pool.removeConn old with
          | mk pool₁ result =>
              rw [outcome] at between₁
              cases result with
              | error e =>
                  have same : pool.perform (.reconnectTo old cfg addr opening rounds) =
                      some (pool₁, []) := by
                    simp only [Pool.perform, Pool.reconnectTo, Pool.submitReconnectTo, outcome,
                      Pool.driveOpened]
                  rw [same]
                  exact ⟨sys₁, removed, between₁⟩
              | ok done =>
                  cases returned : Pool.driveOpened (pool₁.submitConnectTo cfg addr opening)
                      rounds with
                  | mk pool' result =>
                      cases result with
                      | none =>
                          simp [Pool.perform, Pool.reconnectTo, Pool.submitReconnectTo, outcome,
                            returned] at answered
                      | some result =>
                          have same : pool.perform (.reconnectTo old cfg addr opening rounds) =
                              some (pool', []) := by
                            simp only [Pool.perform, Pool.reconnectTo, Pool.submitReconnectTo,
                              outcome, returned]
                          rw [same]
                          obtain ⟨sys₂, driven, between₂⟩ := between₁.drives phases trivial
                            (fun _ _ _ => trivial) cfg addr opening rounds
                            (fun posted member post own => ⟨posted, member, own⟩) returned
                          exact ⟨sys₂, removed.trans driven, between₂⟩
      | send h what =>
          exact between.calls (.send h what) trivial (by simp) (by simp) id
            ⟨congrArg (fun pool => (Pool.sendWith pool h what.run).1) between.stands, rfl⟩
      | initiateClose h code reason =>
          exact between.calls (.close h code reason) trivial (by simp) (by simp) id
            ⟨congrArg (fun pool => (Pool.initiateClose pool h code reason).1) between.stands, rfl⟩
      | pump kind waitNr posts =>
          obtain ⟨along, ends⟩ := PumpCall.along_pumpFor kind pool empty waitNr
            fun _ (member : _ ∈ posts) => member
          exact between.pumps phases along ends
      | pumpSpin kind spinIters turns =>
          have own (n : Nat) : ∀ post ∈ (turns n).posts,
              (ApiCall.pumpSpin kind spinIters turns).Posts post :=
            fun _ member => ⟨n, .inl member⟩
          have ownMore (n m : Nat) : ∀ post ∈ (turns n).more m,
              (ApiCall.pumpSpin kind spinIters turns).Posts post :=
            fun _ member => ⟨n, .inr ⟨m, member⟩⟩
          obtain ⟨along, ends⟩ := PumpCall.along_pumpSpinFor kind pool empty spinIters own ownMore
          exact between.pumps phases along ends

/-- Every run of API calls, with whatever the kernel does between and during them, is a run of the
pool machine: it ends in the same pool, calls the sink in the same order, and takes nothing from
the kernel that the calls do not say. -/
theorem api_calls_are_runs {pool : Pool} (initial : apiMachine.initial pool) (calls : List ApiLabel)
    (returns : apiMachine.Admitted Pool.Returns pool calls) :
    let start : System := ⟨pool, none, none, []⟩
    poolMachine.initial start ∧
      ∃ labels, (poolMachine.run start labels).1.pool = (apiMachine.run pool calls).1 ∧
        (poolMachine.run start labels).2.flatten = (apiMachine.run pool calls).2.flatten ∧
        (poolMachine.run start labels).1.idle = true ∧
        ∀ label ∈ labels, ∃ call ∈ calls, call.Uses label := by
  intro start
  obtain ⟨cfg, bundle, faults, made⟩ := initial
  have first : poolMachine.initial start := ⟨cfg, bundle, faults, made, rfl, rfl, rfl⟩
  have idle : start.idle = true := by
    obtain ⟨_, _, _, _, same⟩ := System.initial_spec first
    rw [same]
    rfl
  obtain ⟨last, performed, between⟩ := api_implements.run ⟨.start first, idle, rfl⟩ calls returns
  obtain ⟨labels, own, ends, outputs⟩ := performed.labels
  refine ⟨first, labels, ?_, outputs, ?_, own⟩
  · rw [ends]
    exact between.stands
  · rw [ends]
    exact between.idle

end Calls

attribute [local instance] Sample.rustls Ws.Sample.digest

/-- The handshake is driven by a blocking call, and a message arrives before the user pumps. -/
def Sample.openedAndPumped : List ApiLabel :=
  [.call (.connectBlockingTo config addr opening [[⟨0, 0, 0, []⟩], [⟨0, 129, 3, answer⟩]]),
    .post ⟨0, 4, 0x10003, [0x81, 0x02, 0x68, 0x69]⟩, .call (.pump .data 0 [])]

theorem api_calls_are_runs_opened :
    let start := Sample.start 256 fun _ => none
    (apiMachine.run start.pool Sample.openedAndPumped).1.state Sample.handle = some .isOpen ∧
      ∃ labels item, (poolMachine.run start labels).1.pool =
          (apiMachine.run start.pool Sample.openedAndPumped).1 ∧
        (poolMachine.run start labels).2.flatten = [(Sample.handle, item)] := by
  have initial : apiMachine.initial (Sample.start 256 fun _ => none).pool :=
    ⟨⟨{ sqEntries := 256 }, 0⟩, true, fun _ => none, rfl⟩
  have returns : apiMachine.Admitted Pool.Returns (Sample.start 256 fun _ => none).pool
      Sample.openedAndPumped := by decide +kernel
  obtain ⟨-, labels, ends, outputs, -, -⟩ := api_calls_are_runs initial _ returns
  have delivered : (apiMachine.run (Sample.start 256 fun _ => none).pool
      Sample.openedAndPumped).2.flatten.map Prod.fst = [Sample.handle] := by decide +kernel
  obtain ⟨⟨h, item⟩, same, rfl⟩ := List.map_eq_singleton_iff.mp delivered
  exact ⟨by decide +kernel, labels, item, ends, outputs.trans same⟩

end Talaris
