import Talaris.Connection.Arming
import Talaris.Pool.Sending
import Talaris.Pool.Visits

/-!
# One receive at a time

A connection reads through one multishot receive.  Two of them would race for the stream, and none
would leave it unread.  Counted over the queues of the ring and the completions on their way, the
receives of a connection are one if its flag says so, and none otherwise (`one_receive`).
-/

namespace Talaris

open Talaris.Basis
open Talaris.Ws

/-! ## Counting operations -/

/-- An operation of this kind on the connection with this token. -/
def Sqe.isOf (kind : OpKind) (token : Nat) (sqe : Sqe) : Bool :=
  sqe.kind = kind && sqe.userData.token = token

/-- The last completion of such an operation. -/
def Completion.endsOf (kind : OpKind) (token : Nat) (c : Completion) : Bool :=
  c.userData.kind = some kind && c.userData.token = token && !(kind = .recv && c.hasMore)

/-- Completions that no connection has handled yet. -/
def Proactor.ahead (proactor : Proactor) (buf : List Completion) : List Completion :=
  proactor.cq.map Prod.fst ++ buf

/-- The operations of a kind that are not over, as far as the connection knows. -/
def Proactor.outstandingOf (proactor : Proactor) (buf : List Completion) (kind : OpKind)
    (token : Nat) : Nat :=
  proactor.submitted.countP (Sqe.isOf kind token) +
    (proactor.ahead buf).countP (Completion.endsOf kind token)

namespace Proactor

variable {proactor proactor' : Proactor} {buf : List Completion} {kind : OpKind} {token : Nat}

/-- An operation completes: it is outstanding as before. -/
theorem outstandingOf_post
    (tagged : ∀ sqe ∈ proactor.submitted, sqe.userData.kind = some sqe.kind) (post : Post) :
    (proactor.post post).outstandingOf buf kind token = proactor.outstandingOf buf kind token := by
  unfold Proactor.post
  cases found : proactor.ops[post.op]? with
  | none => rfl
  | some sqe =>
      have known := tagged sqe (List.mem_append_right _ (List.mem_of_getElem? found))
      obtain ⟨bound, there⟩ := List.getElem?_eq_some_iff.mp found
      have moved := (List.getElem_cons_eraseIdx_perm bound).countP_eq (Sqe.isOf kind token)
      rw [List.countP_cons, there] at moved
      have ends : (post.completion sqe).endsOf kind token =
          (sqe.isOf kind token && !(sqe.isRecv && (post.completion sqe).hasMore)) := by
        have recv : sqe.isRecv = decide (sqe.kind = .recv) := by cases sqe <;> rfl
        have same : (post.completion sqe).userData = sqe.userData := rfl
        rw [Completion.endsOf, Sqe.isOf, same, known, recv]
        by_cases is : sqe.kind = kind
        · subst is
          simp
        · simp [is]
      simp only [outstandingOf, submitted, ahead, List.map_append, List.map_cons, List.map_nil,
        List.countP_append, List.countP_singleton, ends]
      cases own : sqe.isOf kind token <;> rw [own] at moved <;>
        cases more : sqe.isRecv && (post.completion sqe).hasMore <;>
        simp only [Bool.false_eq_true, if_true, if_false, Bool.and_true, Bool.and_false,
          Bool.not_true, Bool.not_false] at moved ⊢ <;> omega

/-- The kernel takes the submissions. -/
theorem outstandingOf_submit :
    proactor.submit.1.outstandingOf buf kind token = proactor.outstandingOf buf kind token := by
  unfold Proactor.submit Proactor.syscall
  cases proactor.faults proactor.calls with
  | some e => rfl
  | none =>
      simp only [outstandingOf, submitted, ahead, List.nil_append, List.countP_append]
      omega

theorem submit_queues (proactor : Proactor) :
    (∀ sqe ∈ proactor.submit.1.submitted, sqe ∈ proactor.submitted) ∧
      proactor.submit.1.cq = proactor.cq := by
  unfold Proactor.submit Proactor.syscall
  cases proactor.faults proactor.calls with
  | some e => exact ⟨fun _ member => member, rfl⟩
  | none =>
      refine ⟨fun sqe member => ?_, rfl⟩
      simp only [submitted, List.nil_append, List.mem_append] at member ⊢
      exact member.symm

/-- A step of a connection takes completions and submits operations. -/
theorem outstandingOf_step {consumed : List Completion} {new : List Sqe}
    (sq : proactor'.sq = proactor.sq ++ new) (ops : proactor'.ops = proactor.ops)
    (cq : proactor'.cq = proactor.cq) :
    proactor'.outstandingOf buf kind token + consumed.countP (Completion.endsOf kind token) =
      proactor.outstandingOf (consumed ++ buf) kind token + new.countP (Sqe.isOf kind token) := by
  simp only [outstandingOf, submitted, ahead, sq, ops, cq, List.countP_append]
  omega

end Proactor

/-! ## One step of a connection -/

section Arming

variable [Rustls] [AcceptDigest]

/-- What a step of a connection does to its receive. -/
inductive ArmEffect (conn conn' : ConnectionState) : List Completion → List Sqe → Prop where
  | kept {consumed : List Completion} {new : List Sqe} : (∀ sqe ∈ new, sqe.kind = .send) →
      conn'.multishotArmed = (conn.multishotArmed && consumed.all fun c => !c.endsRecv) →
      conn'.bufRing.isSome = conn.bufRing.isSome → ArmEffect conn conn' consumed new
  | armed {sends : List Sqe} {recv : Sqe} : (∀ sqe ∈ sends, sqe.kind = .send) →
      recv.kind = .recv → conn.multishotArmed = false → conn.bufRing.isSome = true →
      conn'.multishotArmed = true → conn'.bufRing.isSome = true →
      ArmEffect conn conn' [] (sends ++ [recv])
  | connected (c : Completion) {recv : Sqe} : c.userData.kind = some .connect →
      recv.kind = .recv → conn'.multishotArmed = true → conn'.bufRing.isSome = true →
      ArmEffect conn conn' [c] [recv]

omit [AcceptDigest] in
/-- The two ends of the submit phase. -/
theorem submitted_arms {conn conn₁ conn₂ conn' : ConnectionState}
    {proactor proactor₁ proactor₂ : Proactor} {result : Except ConnectionError Unit}
    (sent : conn.trySubmitSend proactor = (conn₁, proactor₁, .ok ()))
    (armed : conn₁.tryRearmMultishot proactor₁ = (conn₂, proactor₂, result))
    (flag : conn'.multishotArmed = conn₂.multishotArmed) (ring : conn'.bufRing = conn₂.bufRing) :
    ∃ new, proactor₂.sq = proactor.sq ++ new ∧ ArmEffect conn conn' [] new := by
  have staged : conn₁.multishotArmed = conn.multishotArmed ∧ conn₁.bufRing = conn.bufRing ∧
      ∃ sends, (∀ sqe ∈ sends, sqe.kind = .send) ∧ proactor₁.sq = proactor.sq ++ sends := by
    rcases conn.trySubmitSend_cases proactor with same | ⟨-, -, conn₃, _, staged, same⟩ |
      ⟨-, -, conn₃, staged, same⟩
    · rw [same] at sent
      cases sent
      exact ⟨rfl, rfl, [], by simp, by simp⟩
    · rw [same] at sent
      cases sent
      exact ⟨staged.armed, staged.ring, [], by simp, by simp⟩
    · rw [same] at sent
      cases sent
      exact ⟨staged.armed, staged.ring, [conn₃.sendSqe],
        by simp [ConnectionState.sendSqe, Sqe.kind], rfl⟩
  obtain ⟨before, same, sends, kinds, sq⟩ := staged
  rcases conn₁.tryRearmMultishot_arms proactor₁ with ⟨_, still⟩ | ⟨free, present, holds, pushed⟩
  · rw [still] at armed
    cases armed
    refine ⟨sends, sq, .kept kinds ?_ ?_⟩
    · rw [flag, before, List.all_nil, Bool.and_true]
    · rw [ring, same]
  · rw [pushed] at armed
    cases armed
    refine ⟨sends ++ [conn₁.recvSqe present.bgid], ?_, .armed kinds rfl (before ▸ free) ?_ ?_ ?_⟩
    · rw [sq, List.append_assoc]
    · rw [← same, holds]
      rfl
    · exact flag
    · rw [ring]
      show conn₁.bufRing.isSome = true
      rw [holds]
      rfl

omit [AcceptDigest] in
/-- A completion that ends no receive leaves the flag. -/
theorem ArmEffect.quiet {conn conn' : ConnectionState} {consumed : List Completion}
    (other : ∀ c ∈ consumed, c.userData.kind ≠ some .recv)
    (flag : conn'.multishotArmed = conn.multishotArmed)
    (ring : conn'.bufRing.isSome = conn.bufRing.isSome) : ArmEffect conn conn' consumed [] := by
  refine .kept (by simp) ?_ ring
  have none : (consumed.all fun c => !c.endsRecv) = true := by
    rw [List.all_eq_true]
    intro c member
    simp [Completion.endsRecv, other c member]
  rw [flag, none, Bool.and_true]

omit [AcceptDigest] in
theorem ConnectionState.settle_armed {α : Type} (conn : ConnectionState)
    (result : Except ConnectionError α) :
    (conn.settle result).multishotArmed = conn.multishotArmed ∧
      (conn.settle result).bufRing = conn.bufRing := by
  obtain ⟨state, same⟩ := conn.settle_eq result
  rw [same]
  exact ⟨rfl, rfl⟩

omit [AcceptDigest] in
/-- Completions of receives. -/
theorem ArmEffect.received {conn conn' : ConnectionState} {consumed : List Completion}
    (recvs : ∀ c ∈ consumed, c.userData.kind = some .recv)
    (flag : conn'.multishotArmed = (conn.multishotArmed && consumed.all Completion.hasMore))
    (ring : conn'.bufRing.map BufferRing.tag = conn.bufRing.map BufferRing.tag) :
    ArmEffect conn conn' consumed [] := by
  refine .kept (by simp) ?_ (by simpa using congrArg Option.isSome ring)
  have ends : (consumed.all fun c => !c.endsRecv) = consumed.all Completion.hasMore := by
    rw [Bool.eq_iff_iff, List.all_eq_true, List.all_eq_true]
    refine forall_congr' fun c => forall_congr' fun member => ?_
    simp [Completion.endsRecv, recvs c member]
  rw [flag, ends]

theorem handleCompletionFor_arms (conn : ConnectionState) (proactor : Proactor) (pump : PumpKind)
    {c : Completion} (consistent : c.userData.kind = some .recv → c.Consistent)
    (result : Except ConnectionError Nat) :
    ∃ new, (conn.handleCompletionFor proactor pump c).1.sq = proactor.sq ++ new ∧
      ArmEffect conn ((conn.handleCompletionFor proactor pump c).2.conn.settle result) [c] new := by
  have quiet (conn' : ConnectionState) (other : c.userData.kind ≠ some .recv)
      (flag : conn'.multishotArmed = conn.multishotArmed)
      (ring : conn'.bufRing.map BufferRing.tag = conn.bufRing.map BufferRing.tag) :
      ∃ new, proactor.sq = proactor.sq ++ new ∧ ArmEffect conn (conn'.settle result) [c] new := by
    obtain ⟨flag', ring'⟩ := conn'.settle_armed result
    refine ⟨[], by simp, .quiet (by simpa using other) (flag'.trans flag) ?_⟩
    rw [ring']
    simpa using congrArg Option.isSome ring
  have received (conn' : ConnectionState) (is : c.userData.kind = some .recv)
      (flag : conn'.multishotArmed = (conn.multishotArmed && c.hasMore))
      (ring : conn'.bufRing.map BufferRing.tag = conn.bufRing.map BufferRing.tag) :
      ∃ new, proactor.sq = proactor.sq ++ new ∧ ArmEffect conn (conn'.settle result) [c] new := by
    obtain ⟨flag', ring'⟩ := conn'.settle_armed result
    exact ⟨[], by simp, .received (by simpa using is) (by simp [flag', flag]) (by rw [ring', ring])⟩
  unfold ConnectionState.handleCompletionFor
  cases known : c.userData.kind with
  | none => exact quiet conn (by simp [known]) rfl rfl
  | some kind =>
      dsimp only
      split
      next closed =>
        have frozen := conn.discardCompletionAfterClosed_frozen closed kind c
        cases kind with
        | recv =>
            exact received _ known
              (conn.discardRecvCompletionAfterClosed_armed (consistent known)) frozen.ring
        | connect | send | close | nop => exact quiet _ (by simp [known]) rfl frozen.ring
      next active =>
        cases kind with
        | connect =>
            simp only [ConnectionState.dispatchCompletion, ConnectionState.silently]
            rcases conn.onConnectCqe_cases proactor c with ⟨_, _, _, -, refused⟩ |
              ⟨-, -, -, -, _, stuck⟩ | ⟨-, -, -, conn', _, connected, stands⟩
            · rw [refused]
              exact quiet conn (by simp [known]) rfl rfl
            · rw [stuck]
              exact quiet conn (by simp [known]) rfl rfl
            · rw [stands]
              obtain ⟨flag', ring'⟩ := conn'.settle_armed result
              obtain ⟨ring, present, -⟩ := connected.ring
              refine ⟨[conn.recvSqe conn.identity.bgid], rfl, .connected c known rfl ?_ ?_⟩
              · exact flag'.trans connected.armed
              · simp [ring', present]
        | send =>
            simp only [ConnectionState.dispatchCompletion, ConnectionState.silently]
            have sent : (conn.onSendCqe c).1.multishotArmed = conn.multishotArmed ∧
                (conn.onSendCqe c).1.bufRing = conn.bufRing := by
              unfold ConnectionState.onSendCqe
              dsimp only
              split <;> exact ⟨rfl, rfl⟩
            exact quiet _ (by simp [known]) sent.1 (by rw [sent.2])
        | recv =>
            simp only [ConnectionState.dispatchCompletion, ConnectionState.recvHandler_eq]
            exact received _ known (conn.onRecvCqeFor_armed pump (consistent known))
              (conn.onRecvCqeFor_advances pump c).ring
        | close => exact quiet { conn with state := .closed } (by simp [known]) rfl rfl
        | nop => exact quiet conn (by simp [known]) rfl rfl

open ConnectionState in
/-- Every step of a connection. -/
theorem ConnStep.arms {proactor proactor' : Proactor} {conn conn' : ConnectionState}
    {syncs : Bool} {consumed : List Completion} {items : List SinkItem}
    (stepped : ConnStep proactor conn syncs consumed proactor' conn' items)
    (consistent : ∀ c ∈ consumed, c.userData.kind = some .recv → c.Consistent) :
    ∃ new, proactor'.sq = proactor.sq ++ new ∧ ArmEffect conn conn' consumed new := by
  have silent (conn' : ConnectionState) (flag : conn'.multishotArmed = conn.multishotArmed)
      (ring : conn'.bufRing = conn.bufRing) :
      ∃ new, proactor.sq = proactor.sq ++ new ∧ ArmEffect conn conn' [] new :=
    ⟨[], by simp, .quiet (by simp) flag (congrArg Option.isSome ring)⟩
  cases stepped with
  | submitted sent armed => exact submitted_arms sent armed rfl rfl
  | sendFailed sent =>
      rcases conn.trySubmitSend_cases proactor with same | ⟨-, -, conn₃, _, staged, same⟩ |
        ⟨-, -, conn₃, staged, same⟩
      · rw [same] at sent
        cases sent
      · rw [same] at sent
        cases sent
        exact silent _ staged.armed staged.ring
      · rw [same] at sent
        cases sent
  | rearmFailed sent armed => exact submitted_arms sent armed rfl rfl
  | @completed _ handled pump c handles =>
      have effect := handleCompletionFor_arms conn proactor pump
        (consistent c List.mem_cons_self) handled.result
      rw [handles] at effect
      exact effect
  | ran pump _ nonempty able =>
      have recvs : ∀ c ∈ consumed, c.userData.kind = some .recv := by
        intro c member
        have passed := able c member
        simp only [canHandlePlainRecvDataBatch, Bool.and_eq_true, decide_eq_true_eq] at passed
        exact passed.1.1.2
      have flag := conn.handlePlainRecvDataBatchFor_armed pump fun c member =>
        consistent c member (recvs c member)
      have advances := conn.handlePlainRecvDataBatchFor_advances pump consumed
      generalize conn.handlePlainRecvDataBatchFor pump consumed = handled at flag advances
      obtain ⟨flag', ring'⟩ := handled.conn.settle_armed handled.result
      exact ⟨[], by simp, .received recvs (flag'.trans flag) (by rw [ring', advances.ring])⟩
  | polled | pollFailed =>
      rw [syncs_eq]
      exact silent _ rfl rfl
  | driven =>
      rw [syncs_eq]
      exact silent _ rfl rfl
  | driveSynced =>
      rw [syncWsOpenState_eq]
      exact silent _ rfl rfl
  | skipped | driveFailed | sent | closeRefused | closing => exact silent _ rfl rfl

/-! ## The invariant -/

/-- The flag of a connection agrees with its receives, and before it is connected there is none. -/
structure Arms (conn : ConnectionState) (recvs connects : Nat) : Prop where
  recvs : recvs = conn.multishotArmed.toNat
  once : connects ≤ 1
  early : 0 < connects → conn.multishotArmed = false ∧ conn.bufRing.isSome = false

omit [AcceptDigest] in
theorem Arms.step {conn conn' : ConnectionState} {consumed : List Completion} {new : List Sqe}
    {recvs connects recvs' connects' token : Nat} (arms : Arms conn recvs connects)
    (effect : ArmEffect conn conn' consumed new)
    (mine : ∀ c ∈ consumed, c.userData.token = token)
    (tags : ∀ sqe ∈ new, sqe.userData.token = token)
    (recv : recvs' + consumed.countP (Completion.endsOf .recv token) =
      recvs + new.countP (Sqe.isOf .recv token))
    (connect : connects' + consumed.countP (Completion.endsOf .connect token) =
      connects + new.countP (Sqe.isOf .connect token)) : Arms conn' recvs' connects' := by
  obtain ⟨flag, once, early⟩ := arms
  have most := Bool.toNat_le conn.multishotArmed
  have none {kind : OpKind} {sqes : List Sqe} (other : ∀ sqe ∈ sqes, sqe.kind ≠ kind) :
      sqes.countP (Sqe.isOf kind token) = 0 := by
    rw [List.countP_eq_zero]
    intro sqe member
    simp [Sqe.isOf, other sqe member]
  cases effect with
  | kept sends flag' ring =>
      rw [none fun sqe member => by simp [sends sqe member]] at recv connect
      have ends : consumed.countP (Completion.endsOf .recv token) =
          consumed.countP Completion.endsRecv := by
        apply List.countP_congr
        intro c member
        simp [Completion.endsOf, Completion.endsRecv, mine c member]
      rw [ends] at recv
      have ending : (consumed.all fun c => !c.endsRecv) = true ↔
          consumed.countP Completion.endsRecv = 0 := by
        simp [List.countP_eq_zero]
      refine ⟨?_, by omega, fun waiting => ?_⟩
      · by_cases none_ended : consumed.countP Completion.endsRecv = 0
        · rw [flag', ending.mpr none_ended, Bool.and_true, ← flag]
          omega
        · have stopped : (consumed.all fun c => !c.endsRecv) = false := by
            rw [← Bool.not_eq_true, ending]
            exact none_ended
          rw [flag', stopped, Bool.and_false, Bool.toNat_false]
          omega
      · obtain ⟨unarmed, ringless⟩ := early (by omega)
        rw [flag', unarmed, ring, ringless]
        exact ⟨rfl, rfl⟩
  | @armed sends sqe kinds kind unarmed ring flag' =>
      have own : sqe.userData.token = token := tags sqe (by simp)
      have connectless : connects = 0 := by
        by_contra some
        simp [(early (by omega)).2] at ring
      have others : (sends ++ [sqe]).countP (Sqe.isOf .connect token) = 0 := by
        apply none
        intro other member
        rcases List.mem_append.mp member with send | last
        · simp [kinds other send]
        · simp [List.mem_singleton.mp last, kind]
      have one : (sends ++ [sqe]).countP (Sqe.isOf .recv token) = 1 := by
        rw [List.countP_append, none fun other member => by simp [kinds other member]]
        simp [Sqe.isOf, kind, own]
      rw [one, List.countP_nil] at recv
      rw [others, List.countP_nil] at connect
      rw [unarmed, Bool.toNat_false] at flag
      refine ⟨?_, by omega, by omega⟩
      rw [flag', Bool.toNat_true]
      omega
  | @connected c sqe known kind flag' =>
      have own : sqe.userData.token = token := tags sqe (by simp)
      have hears : [c].countP (Completion.endsOf .connect token) = 1 := by
        simp [Completion.endsOf, known, mine c List.mem_cons_self]
      have deaf : [c].countP (Completion.endsOf .recv token) = 0 := by
        simp [Completion.endsOf, known]
      have one : [sqe].countP (Sqe.isOf .recv token) = 1 := by simp [Sqe.isOf, kind, own]
      rw [deaf, one] at recv
      rw [hears, none (by simp [kind])] at connect
      obtain ⟨unarmed, -⟩ := early (by omega)
      rw [unarmed, Bool.toNat_false] at flag
      refine ⟨?_, by omega, by omega⟩
      rw [flag', Bool.toNat_true]
      omega

/-- The operations of a kind on a connection that are not over for it. -/
def Pool.outstandingOf (pool : Pool) (kind : OpKind) (token : Nat) : Nat :=
  pool.proactor.outstandingOf pool.completionsBuf kind token

/-- Completions that wait for the pool. -/
def Pool.ahead (pool : Pool) : List Completion := pool.proactor.ahead pool.completionsBuf

/-- The kernel completes only Connects and receives that the connection submitted, and a receive
that fails is over. -/
structure System.Receives (token : Nat) (sys : System) (label : PoolLabel) : Prop where
  real : ∀ c, label = .spurious c → c.userData.token = token →
    c.userData.kind ≠ some .recv ∧ c.userData.kind ≠ some .connect
  consistent : ∀ post sqe, label = .post post → sys.pool.proactor.ops[post.op]? = some sqe →
    sqe.isOf .recv token = true → (post.completion sqe).Consistent

/-- What a step of the kernel does to a receive of the connection, checked. -/
def System.honestRecv (sys : System) (token : Nat) : PoolLabel → Bool
  | .spurious c => c.userData.token ≠ token ||
      (c.userData.kind ≠ some .recv && c.userData.kind ≠ some .connect)
  | .post post => sys.pool.proactor.ops[post.op]?.all fun sqe =>
      !sqe.isOf .recv token || decide (post.completion sqe).Consistent
  | _ => true

instance (token : Nat) (sys : System) (label : PoolLabel) : Decidable (sys.Receives token label) :=
  decidable_of_iff (sys.honestRecv token label = true) <| by
    constructor
    · intro honest
      refine ⟨?_, ?_⟩
      · rintro c rfl mine
        simpa [System.honestRecv, mine] using honest
      · rintro post sqe rfl found own
        simpa [System.honestRecv, found, own] using honest
    · intro receives
      cases label with
      | spurious c =>
          by_cases mine : c.userData.token = token
          · simpa [System.honestRecv, mine] using receives.real c rfl mine
          · simp [System.honestRecv, mine]
      | post post =>
          cases found : sys.pool.proactor.ops[post.op]? with
          | none => simp [System.honestRecv, found]
          | some sqe =>
              cases own : sqe.isOf .recv token with
              | false => simp [System.honestRecv, found, own]
              | true => simpa [System.honestRecv, found, own] using
                  receives.consistent post sqe rfl found own
      | _ => rfl

/-- What holds of the receives of a connection before it is opened and while it is in its slot. -/
structure Arming (token : Nat) (sys : System) : Prop where
  tagged : ∀ sqe ∈ sys.pool.proactor.submitted, sqe.userData.kind = some sqe.kind
  consistent : ∀ c ∈ sys.pool.ahead, c.userData.kind = some .recv → c.userData.token = token →
    c.Consistent
  unknown : (⟨token⟩ : ConnHandle) ∉ sys.handles →
    sys.pool.outstandingOf .recv token = 0 ∧ sys.pool.outstandingOf .connect token = 0
  arms : ∀ i conn, sys.pool.connAt i = some conn → conn.token = token →
    Arms conn (sys.pool.outstandingOf .recv token) (sys.pool.outstandingOf .connect token)

namespace Arming

variable {token : Nat} {sys sys' : System} {label : PoolLabel}

omit [AcceptDigest] in
/-- Nothing of the connection moves. -/
theorem still (arming : Arming token sys)
    (conns : ∀ i conn, sys'.pool.connAt i = some conn → sys.pool.connAt i = some conn)
    (handles : sys'.handles = sys.handles)
    (tagged : ∀ sqe ∈ sys'.pool.proactor.submitted, sqe.userData.kind = some sqe.kind)
    (consistent : ∀ c ∈ sys'.pool.ahead, c.userData.kind = some .recv → c.userData.token = token →
      c.Consistent)
    (recvs : sys'.pool.outstandingOf .recv token = sys.pool.outstandingOf .recv token)
    (connects : sys'.pool.outstandingOf .connect token = sys.pool.outstandingOf .connect token) :
    Arming token sys' := by
  refine ⟨tagged, consistent, ?_, fun i conn found same => ?_⟩
  · rw [handles, recvs, connects]
    exact arming.unknown
  · rw [recvs, connects]
    exact arming.arms i conn (conns i conn found) same

theorem initially (initial : poolMachine.initial sys) : Arming token sys := by
  obtain ⟨_, _, _, _, rfl⟩ := System.initial_spec initial
  exact ⟨by simp [Proactor.submitted], by simp [Pool.ahead, Proactor.ahead],
    fun _ => ⟨rfl, rfl⟩, by simp [Pool.connAt]⟩

/-- The kernel completes an operation. -/
theorem post (arming : Arming token sys) (post : Proactor.Post)
    (receives : sys.Receives token (.post post)) :
    Arming token (poolMachine.step sys (.post post)).1 := by
  show Arming token { sys with pool := { sys.pool with proactor := sys.pool.proactor.post post } }
  refine arming.still (fun _ _ found => found) rfl ?_ ?_
    (Proactor.outstandingOf_post arming.tagged post)
    (Proactor.outstandingOf_post arming.tagged post)
  · intro sqe member
    exact arming.tagged sqe ((sys.pool.proactor.post_sends post token arming.tagged).1 sqe member)
  · intro c member recv mine
    unfold Pool.ahead Proactor.ahead Proactor.post at member
    cases found : sys.pool.proactor.ops[post.op]? with
    | none =>
        rw [found] at member
        exact arming.consistent c member recv mine
    | some sqe =>
        rw [found] at member
        simp only [List.map_append, List.map_cons, List.map_nil, List.mem_append,
          List.mem_singleton] at member
        rcases member with (waiting | rfl) | buffered
        · exact arming.consistent c (List.mem_append_left _ waiting) recv mine
        · refine receives.consistent post sqe rfl found ?_
          have known := arming.tagged sqe (List.mem_append_right _ (List.mem_of_getElem? found))
          have same : (post.completion sqe).userData = sqe.userData := rfl
          rw [same] at recv mine
          rw [known, Option.some.injEq] at recv
          simp [Sqe.isOf, recv, mine]
        · exact arming.consistent c (List.mem_append_right _ buffered) recv mine

omit [AcceptDigest] in
/-- The kernel moves on. -/
theorem kernel (arming : Arming token sys) (slots : Slots sys.pool sys.handles)
    (receives : sys.Receives token label) {proactor : Proactor} {buf : List Completion}
    (moved : KernelMove sys.pool label proactor buf) (silent : ∀ post, label ≠ .post post)
    (firstErr : Option ConnectionError) (driving : Option Nat) :
    Arming token
      ⟨{ sys.pool with proactor, completionsBuf := buf }, firstErr, driving, sys.history⟩ := by
  cases moved with
  | same =>
      exact arming.still (fun _ _ found => found) rfl arming.tagged arming.consistent rfl rfl
  | posted post => exact absurd rfl (silent post)
  | spurious c =>
      have foreign (kind : OpKind) (listed : kind = .recv ∨ kind = .connect) :
          (sys.pool.proactor.postSpurious c).outstandingOf sys.pool.completionsBuf kind token =
            sys.pool.outstandingOf kind token := by
        have other : c.endsOf kind token = false := by
          by_cases mine : c.userData.token = token
          · obtain ⟨recv, connect⟩ := receives.real c rfl mine
            rcases listed with rfl | rfl
            · simp [Completion.endsOf, recv]
            · simp [Completion.endsOf, connect]
          · simp [Completion.endsOf, mine]
        simp [Proactor.postSpurious, Proactor.outstandingOf, Pool.outstandingOf, Proactor.ahead,
          Proactor.submitted, other]
      refine arming.still (fun _ _ found => found) rfl arming.tagged ?_
        (foreign .recv (.inl rfl)) (foreign .connect (.inr rfl))
      intro other member recv mine
      simp only [Pool.ahead, Proactor.ahead, Proactor.postSpurious, List.map_append, List.map_cons,
        List.map_nil, List.mem_append, List.mem_singleton] at member
      rcases member with (waiting | rfl) | buffered
      · exact arming.consistent other (List.mem_append_left _ waiting) recv mine
      · exact absurd recv (receives.real other rfl mine).1
      · exact arming.consistent other (List.mem_append_right _ buffered) recv mine
  | entered =>
      obtain ⟨subset, same⟩ := sys.pool.proactor.submit_queues
      refine arming.still (fun _ _ found => found) rfl
        (fun sqe member => arming.tagged sqe (subset sqe member)) ?_ Proactor.outstandingOf_submit
        Proactor.outstandingOf_submit
      simp only [Pool.ahead, Proactor.ahead, same]
      exact arming.consistent
  | drained empty =>
      have ahead : Proactor.ahead sys.pool.proactor.drainCompletions.1
          sys.pool.proactor.drainCompletions.2 = sys.pool.ahead := by
        simp [Pool.ahead, Proactor.ahead, Proactor.drainCompletions, empty]
      have count (kind : OpKind) : Proactor.outstandingOf sys.pool.proactor.drainCompletions.1
          sys.pool.proactor.drainCompletions.2 kind token = sys.pool.outstandingOf kind token := by
        unfold Pool.outstandingOf Proactor.outstandingOf
        rw [ahead]
        rfl
      refine arming.still (fun _ _ found => found) rfl arming.tagged ?_ (count _) (count _)
      show ∀ c ∈ Proactor.ahead _ _, _
      rw [ahead]
      exact arming.consistent
  | dropped pump c _ buffered unrouted =>
      have count (kind : OpKind) : sys.pool.proactor.outstandingOf buf kind token +
          [c].countP (Completion.endsOf kind token) = sys.pool.outstandingOf kind token := by
        rw [Pool.outstandingOf, buffered]
        exact Proactor.outstandingOf_step (List.append_nil _).symm rfl rfl
      refine ⟨arming.tagged, fun other member => ?_, fun unknown => ?_, fun i conn found same => ?_⟩
      · apply arming.consistent
        rw [Pool.ahead, buffered]
        simp only [Pool.ahead, Proactor.ahead, List.mem_append, List.mem_cons] at member ⊢
        tauto
      · obtain ⟨recvs, connects⟩ := arming.unknown unknown
        have recv := count .recv
        have connect := count .connect
        exact ⟨by show sys.pool.proactor.outstandingOf buf _ _ = 0; omega,
          by show sys.pool.proactor.outstandingOf buf _ _ = 0; omega⟩
      · -- a completion of the connection would have found it
        have foreign : c.userData.token ≠ token := by
          intro mine
          rw [slots.routed found (mine.trans same.symm)] at unrouted
          cases unrouted
        have still (kind : OpKind) :
            sys.pool.proactor.outstandingOf buf kind token = sys.pool.outstandingOf kind token := by
          rw [← count kind]
          simp [Completion.endsOf, foreign]
        show Arms conn (sys.pool.proactor.outstandingOf buf .recv token)
          (sys.pool.proactor.outstandingOf buf .connect token)
        rw [still, still]
        exact arming.arms i conn found same

/-- One connection takes a step. -/
theorem update (arming : Arming token sys) (slots : Slots sys.pool sys.handles) {i : Nat}
    {conn conn' : ConnectionState} {syncs : Bool} {consumed buf : List Completion}
    {proactor : Proactor} {items : List SinkItem} (found : sys.pool.connAt i = some conn)
    (split : sys.pool.completionsBuf = consumed ++ buf)
    (mine : ∀ c ∈ consumed, c.userData.token = conn.token)
    (stepped : ConnStep sys.pool.proactor conn syncs consumed proactor conn' items)
    (pool : sys'.pool = sys.pool.update i conn conn' proactor buf)
    (handles : sys'.handles = sys.handles) : Arming token sys' := by
  obtain ⟨new, sq, ops, cq, tags, -⟩ := stepped.effect.sends
  have small := slots.token_lt found
  have kept : conn'.token = conn.token :=
    congrArg (fun endpoint => endpoint.identity.token) stepped.effect.endpoint
  have moved : sys'.pool.proactor = proactor := by
    rw [pool]
    rfl
  have left : sys'.pool.completionsBuf = buf := by
    rw [pool]
    rfl
  have count (kind : OpKind) : sys'.pool.outstandingOf kind token +
      consumed.countP (Completion.endsOf kind token) =
        sys.pool.outstandingOf kind token + new.countP (Sqe.isOf kind token) := by
    rw [Pool.outstandingOf, Pool.outstandingOf, moved, left, split]
    exact Proactor.outstandingOf_step sq ops cq
  have tagged : ∀ sqe ∈ sys'.pool.proactor.submitted, sqe.userData.kind = some sqe.kind := by
    intro sqe member
    simp only [moved, Proactor.submitted, sq, ops, List.mem_append] at member
    rcases member with (old | fresh) | running
    · exact arming.tagged sqe (List.mem_append_left _ old)
    · rw [tags sqe fresh, UserData.kind_new]
    · exact arming.tagged sqe (List.mem_append_right _ running)
  have consistent : ∀ c ∈ sys'.pool.ahead, c.userData.kind = some .recv →
      c.userData.token = token → c.Consistent := by
    intro c member
    apply arming.consistent
    rw [Pool.ahead, split]
    simp only [Pool.ahead, Proactor.ahead, moved, left, cq, List.mem_append] at member ⊢
    tauto
  have known (sqe : Sqe) (fresh : sqe ∈ new) : sqe.userData.token = conn.token := by
    rw [tags sqe fresh, UserData.token_new _ small]
  by_cases own : conn.token = token
  · subst own
    refine ⟨tagged, consistent, fun unknown => ?_, fun j now here same => ?_⟩
    · rw [handles] at unknown
      exact absurd (slots.seated i conn found) unknown
    · rw [pool] at here
      rcases Pool.connAt_update_cases found here with ⟨rfl, rfl⟩ | ⟨other, there⟩
      · obtain ⟨new', sq', effect⟩ := stepped.arms fun c member recv =>
          arming.consistent c (by simp [Pool.ahead, Proactor.ahead, split, member]) recv
            (mine c member)
        have same_new : new' = new := List.append_cancel_left (sq'.symm.trans sq)
        subst same_new
        exact (arming.arms j conn found rfl).step effect mine known (count .recv) (count .connect)
      · exact absurd (slots.handle_unique there found (congrArg ConnHandle.mk same)) other
  · have still (kind : OpKind) :
        sys'.pool.outstandingOf kind token = sys.pool.outstandingOf kind token := by
      have none : consumed.countP (Completion.endsOf kind token) = 0 := by
        rw [List.countP_eq_zero]
        intro c member
        simp [Completion.endsOf, mine c member, own]
      have others : new.countP (Sqe.isOf kind token) = 0 := by
        rw [List.countP_eq_zero]
        intro sqe fresh
        simp [Sqe.isOf, known sqe fresh, own]
      have count := count kind
      omega
    refine ⟨tagged, consistent, ?_, fun j now here same => ?_⟩
    · rw [handles, still, still]
      exact arming.unknown
    · rw [still, still]
      rw [pool] at here
      rcases Pool.connAt_update_cases found here with ⟨-, rfl⟩ | ⟨-, there⟩
      · exact absurd (kept.symm.trans same) own
      · exact arming.arms j now there same

/-- A connection takes a slot, and connects. -/
theorem seated (arming : Arming token sys) (slots : Slots sys.pool sys.handles) {slot fresh : Bool} {conn : ConnectionState}
    {cfg : ConnectionConfig} {addr : SocketAddr} {opening : Opening} {driving : Option Nat}
    {proactor : Proactor} (made : ConnectionState.Made cfg conn.identity addr opening conn)
    (inside : conn.identity.connId < (sys.pool.stocked slot fresh).conns.length)
    (unknown : ConnHandle.fromConn conn ∉ sys.handles)
    (sq : proactor.sq = sys.pool.proactor.sq ++
      [Sqe.connect conn.socket conn.addr (UserData.new .connect conn.token)])
    (ops : proactor.ops = sys.pool.proactor.ops) (cq : proactor.cq = sys.pool.proactor.cq)
    (small : conn.token < 2 ^ 56) :
    Arming token
      ⟨(sys.pool.stocked slot fresh).occupied conn proactor, sys.firstErr, driving,
        sys.history ++ [.opened (ConnHandle.fromConn conn) conn.ws conn.tls.isNone]⟩ := by
  generalize entry : Sqe.connect conn.socket conn.addr (UserData.new .connect conn.token) = sqe
    at sq
  have kind : sqe.kind = .connect := by
    rw [← entry]
    rfl
  have data : sqe.userData = UserData.new .connect conn.token := by
    rw [← entry]
    rfl
  have own : sqe.userData.token = conn.token := by
    rw [data, UserData.token_new _ small]
  have count (kind : OpKind) :
      ((sys.pool.stocked slot fresh).occupied conn proactor).outstandingOf kind token =
        sys.pool.outstandingOf kind token + [sqe].countP (Sqe.isOf kind token) := by
    have stepped : proactor.outstandingOf sys.pool.completionsBuf kind token +
        List.countP (Completion.endsOf kind token) [] =
          sys.pool.proactor.outstandingOf ([] ++ sys.pool.completionsBuf) kind token +
            [sqe].countP (Sqe.isOf kind token) := Proactor.outstandingOf_step sq ops cq
    exact stepped
  have recvless : [sqe].countP (Sqe.isOf .recv token) = 0 := by simp [Sqe.isOf, kind]
  have others (other : token ≠ conn.token) : [sqe].countP (Sqe.isOf .connect token) = 0 := by
    simp [Sqe.isOf, own, Ne.symm other]
  have recvs := count .recv
  have connects := count .connect
  rw [recvless, Nat.add_zero] at recvs
  refine ⟨fun other member => ?_, ?_, fun still => ?_, fun i now here same => ?_⟩
  · simp only [Pool.occupied, Proactor.submitted, sq, ops, List.mem_append,
      List.mem_singleton] at member
    rcases member with (old | rfl) | running
    · exact arming.tagged other (List.mem_append_left _ old)
    · rw [data, UserData.kind_new, kind]
    · exact arming.tagged other (List.mem_append_right _ running)
  · simp only [Pool.ahead, Proactor.ahead, Pool.occupied, cq]
    exact arming.consistent
  · have before : (⟨token⟩ : ConnHandle) ∉ sys.handles ∧ token ≠ conn.token := by
      simp only [System.handles, List.filterMap_append, List.mem_append, not_or] at still
      refine ⟨still.1, fun same => still.2 ?_⟩
      simp [HistoryEntry.handle?, same, ConnHandle.fromConn]
    obtain ⟨noRecv, noConnect⟩ := arming.unknown before.1
    rw [others before.2, Nat.add_zero] at connects
    exact ⟨recvs.trans noRecv, connects.trans noConnect⟩
  · show Arms now (((sys.pool.stocked slot fresh).occupied conn proactor).outstandingOf .recv token)
      (((sys.pool.stocked slot fresh).occupied conn proactor).outstandingOf .connect token)
    rw [recvs, connects]
    rcases Pool.connAt_occupied_cases inside here with ⟨-, rfl⟩ | ⟨-, there⟩
    · subst same
      obtain ⟨noRecv, noConnect⟩ := arming.unknown unknown
      refine ⟨?_, ?_, fun _ => ?_⟩
      · rw [noRecv, made.armed]
        rfl
      · rw [noConnect, Nat.zero_add]
        exact List.countP_le_length
      · rw [made.ring]
        exact ⟨made.armed, rfl⟩
    · rw [Pool.connAt_stocked] at there
      have other : token ≠ conn.token := by
        intro equal
        apply unknown
        have known := slots.seated i now there
        rwa [ConnHandle.fromConn, ← equal, ← same]
      rw [others other, Nat.add_zero]
      exact arming.arms i now there same

omit [AcceptDigest] in
/-- A dead connection leaves its slot. -/
theorem vacated (arming : Arming token sys) (table : RingTable sys.pool) {dead : ConnectionState}
    {driving : Option Nat} (found : sys.pool.connAt dead.identity.connId = some dead) :
    Arming token { sys with pool := sys.pool.vacated dead.identity.connId dead, driving } := by
  obtain ⟨sq, ops, cq⟩ := unregisterDead_queues sys.pool.proactor (table.ring_standing found)
  have submitted : (sys.pool.vacated dead.identity.connId dead).proactor.submitted =
      sys.pool.proactor.submitted := by
    simp only [Pool.vacated, Proactor.submitted, sq, ops]
  have ahead : (sys.pool.vacated dead.identity.connId dead).ahead = sys.pool.ahead := by
    simp only [Pool.vacated, Pool.ahead, Proactor.ahead, cq]
  have count (kind : OpKind) :
      (sys.pool.vacated dead.identity.connId dead).outstandingOf kind token =
        sys.pool.outstandingOf kind token := by
    simp only [Pool.vacated, Pool.outstandingOf, Proactor.outstandingOf, Proactor.submitted,
      Proactor.ahead, sq, ops, cq]
  refine arming.still (fun i now here => (Pool.connAt_vacated_cases found here).2) rfl ?_ ?_
    (count .recv) (count .connect)
  · rw [submitted]
    exact arming.tagged
  · rw [ahead]
    exact arming.consistent

/-- One step of the machine. -/
theorem step (arming : Arming token sys) (reached : poolMachine.Reach Machine.always sys)
    (receives : sys.Receives token label) : Arming token (poolMachine.step sys label).1 := by
  by_cases posts : ∃ post, label = .post post
  · obtain ⟨completed, rfl⟩ := posts
    exact arming.post completed receives
  · have silent : ∀ post, label ≠ .post post := fun post same => posts ⟨post, same⟩
    have ledger := System.ledger_reach reached
    have slots' := System.slots_reach (.next label reached trivial)
    have change := System.change ledger.slots label
    generalize poolMachine.step sys label = next at change slots'
    obtain ⟨sys', out⟩ := next
    cases change with
    | kernel firstErr driving moved =>
        exact arming.kernel ledger.slots receives moved silent firstErr driving
    | step _ _ found split routed _ _ stepped =>
        refine arming.update ledger.slots found split ?_ stepped rfl (handles_recorded _ _ _ _)
        intro c member
        exact (System.connForCompletion_spec (routed c member)).2.1.symm
    | refused =>
        refine arming.still (fun i now here => ?_) rfl arming.tagged arming.consistent rfl rfl
        rwa [Pool.connAt_stocked] at here
    | @seated _ _ conn _ _ _ _ _ _ _ _ _ made _ _ _ inside _ unknown =>
        have small := slots'.token_lt (Pool.connAt_occupied_self inside _)
        exact arming.seated ledger.slots made inside unknown rfl rfl rfl small
    | retired _ _ found => exact arming.vacated ledger.table found

/-- A whole run. -/
theorem run (arming : Arming token sys) (reached : poolMachine.Reach Machine.always sys)
    (labels : List PoolLabel) (receives : poolMachine.Admitted (System.Receives token) sys labels) :
    Arming token (poolMachine.run sys labels).1 := by
  induction labels generalizing sys with
  | nil => exact arming
  | cons label labels ih =>
      obtain ⟨first, later⟩ := receives
      exact ih (arming.step reached first) (.next label reached trivial) later

end Arming

/-- What the submit phase leaves of a connection that may receive is armed. -/
theorem System.submit_arms {sys : System} {i : Nat} {conn conn' : ConnectionState}
    (drained : sys.pool.completionsBuf = []) (found : sys.pool.connAt i = some conn)
    (after : (poolMachine.step sys (.submit i)).1.pool.connAt i = some conn')
    (awake : conn'.quiet = false) (ring : conn'.bufRing.isSome = true) :
    conn'.token = conn.token ∧ conn'.multishotArmed = true := by
  have stepped : poolMachine.step sys (.submit i) = sys.act (.submit i) := by
    simp [poolMachine, System.enabled, drained]
  obtain ⟨last, turn, visit⟩ := System.submit_turn found
  rw [stepped, turn.here, if_pos rfl, Option.some.injEq] at after
  subst after
  refine ⟨turn.token, ?_⟩
  cases visit with
  | submitted _ armed => exact ConnectionState.tryRearmMultishot_ok armed awake ring
  | sendFailed => simp [ConnectionState.quiet] at awake
  | rearmFailed => simp [ConnectionState.quiet] at awake

/-- At any time a connection has one receive outstanding if its flag says so, and none otherwise,
and after its submit phase it has one, if it is connected. -/
theorem one_receive {start : System} (initial : poolMachine.initial start) {token : Nat}
    {labels : List PoolLabel}
    (receives : poolMachine.Admitted (System.Receives token) start labels) :
    let sys := (poolMachine.run start labels).1
    ∀ i conn, sys.pool.connAt i = some conn → conn.token = token →
      sys.pool.outstandingOf .recv token = conn.multishotArmed.toNat ∧
      (sys.pool.completionsBuf = [] →
        let sys' := (poolMachine.step sys (.submit i)).1
        ∀ conn', sys'.pool.connAt i = some conn' → conn'.quiet = false →
          conn'.bufRing.isSome = true → sys'.pool.outstandingOf .recv token = 1) := by
  intro sys i conn found same
  have reached := (Machine.Reach.start initial).run_always labels
  have arming := (Arming.initially initial).run (.start initial) labels receives
  refine ⟨(arming.arms i conn found same).recvs, fun drained conn' after awake ring => ?_⟩
  obtain ⟨kept, armed⟩ := System.submit_arms drained found after awake ring
  have submits : sys.Receives token (.submit i) := ⟨by simp, by simp⟩
  have later := (arming.step reached submits).arms i conn' after (kept.trans same)
  rw [later.recvs, armed]
  rfl

end Arming

/-! ## A receive that ends -/

section Ended

attribute [local instance] Sample.rustls Ws.Sample.digest

/-- The receive ends with the answer. -/
def answered : List PoolLabel :=
  [.connect Sample.config Sample.addr Sample.opening false, .enter, .post ⟨0, 0, 0, []⟩, .drain,
    .dispatch .data, .submit 0, .enter, .post ⟨0, 129, 1, Sample.answer⟩, .drain, .dispatch .data]

/-- The pool behind these steps. -/
def unarmed : System := (poolMachine.run (Sample.start 256 fun _ => none) answered).1

theorem one_receive_answered :
    unarmed.pool.outstandingOf .recv Sample.handle.raw = 0 ∧
      (poolMachine.step unarmed (.submit 0)).1.pool.outstandingOf .recv Sample.handle.raw = 1 := by
  have seated : (unarmed.pool.connAt 0).any (fun conn =>
      decide (conn.token = Sample.handle.raw) && !conn.multishotArmed &&
        unarmed.pool.completionsBuf.isEmpty) = true := by
    decide +kernel
  have again : ((poolMachine.step unarmed (.submit 0)).1.pool.connAt 0).any (fun conn =>
      !conn.quiet && conn.bufRing.isSome) = true := by
    decide +kernel
  have receives : poolMachine.Admitted (System.Receives Sample.handle.raw)
      (Sample.start 256 fun _ => none) answered := by
    decide +kernel
  obtain ⟨conn, found, known⟩ := (Option.any_eq_true _ _).mp seated
  obtain ⟨conn', after, awake⟩ := (Option.any_eq_true _ _).mp again
  simp only [Bool.and_eq_true, decide_eq_true_eq, Bool.not_eq_true', List.isEmpty_iff] at known awake
  obtain ⟨⟨same, flag⟩, drained⟩ := known
  obtain ⟨count, rearmed⟩ := one_receive (Sample.start_initial _ (by decide)) receives 0 conn found
    same
  rw [flag] at count
  refine ⟨count, ?_⟩
  unfold unarmed at drained after ⊢
  exact rearmed drained conn' after awake.1 awake.2

end Ended

end Talaris
