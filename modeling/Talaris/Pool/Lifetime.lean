import Talaris.Pool.Groups

/-!
# Memory that the kernel refers to

A Connect refers to the socket and the boxed address of its connection, a Send to the socket
and the send buffer.  The contract of `uring.rs` is that they stay until the completion is
drained.  Removing a connection while such an operation is outstanding breaks it; in a run
that never does so every operation finds its memory in place.
-/

namespace Talaris

open Talaris.Basis
open Talaris.Ws

/-! ## Operations -/

def Sqe.kind : Sqe → OpKind
  | connect .. => .connect
  | send .. => .send
  | recv .. => .recv

/-- A send of the connection with this token. -/
def Sqe.isSendOf (token : Nat) (sqe : Sqe) : Bool :=
  sqe.kind = .send && sqe.userData.token = token

def Completion.isSendOf (token : Nat) (c : Completion) : Bool :=
  c.userData.kind = some .send && c.userData.token = token

namespace Proactor

/-- The operations behind the completions that have not been drained. -/
def origins (proactor : Proactor) : List Sqe := proactor.cq.filterMap Prod.snd

/-- All operations whose completion has not been drained. -/
def pending (proactor : Proactor) : List Sqe := proactor.sq ++ proactor.ops ++ proactor.origins

theorem mem_pending_of_outstanding {proactor : Proactor} {sqe : Sqe}
    (member : sqe ∈ proactor.outstanding) : sqe ∈ proactor.pending := by
  simp only [outstanding, pending, origins, List.mem_append, List.mem_filterMap] at member ⊢
  rcases member with early | ⟨entry, inside, kept⟩
  · exact .inl early
  · exact .inr ⟨entry, inside, (Option.filter_eq_some_iff.mp kept).1⟩

theorem mem_outstanding {proactor : Proactor} {sqe : Sqe} (member : sqe ∈ proactor.pending)
    (notRecv : sqe.isRecv = false) : sqe ∈ proactor.outstanding := by
  simp only [outstanding, pending, origins, List.mem_append, List.mem_filterMap] at member ⊢
  rcases member with early | ⟨entry, inside, same⟩
  · exact .inl early
  · exact .inr ⟨entry, inside, by simp [same, notRecv]⟩

/-- Every operation carries its own kind, and so does every completion. -/
structure Tagged (proactor : Proactor) : Prop where
  ops : ∀ sqe ∈ proactor.pending, sqe.userData.kind = some sqe.kind
  cq : ∀ entry ∈ proactor.cq, ∃ sqe, entry.2 = some sqe ∧ entry.1.userData = sqe.userData

/-- The number of sends of a connection that are pending. -/
def sends (proactor : Proactor) (token : Nat) : Nat := proactor.pending.countP (Sqe.isSendOf token)

theorem sends_eq (proactor : Proactor) (token : Nat) :
    proactor.sends token = proactor.sq.countP (Sqe.isSendOf token) +
      proactor.ops.countP (Sqe.isSendOf token) + proactor.origins.countP (Sqe.isSendOf token) := by
  simp only [sends, pending, List.countP_append]

/-- A completion is a send's exactly if its operation is one. -/
theorem Tagged.isSendOf {proactor : Proactor} (tagged : proactor.Tagged) {c : Completion} {sqe : Sqe}
    (member : (c, some sqe) ∈ proactor.cq) (token : Nat) :
    c.isSendOf token = sqe.isSendOf token := by
  obtain ⟨_, same, userData⟩ := tagged.cq _ member
  cases same
  have origin : sqe ∈ proactor.pending := by
    simp only [pending, origins, List.mem_append, List.mem_filterMap]
    exact .inr ⟨_, member, rfl⟩
  have kind := tagged.ops sqe origin
  dsimp only at userData
  simp only [Completion.isSendOf, Sqe.isSendOf, userData, kind, Option.some.injEq]

/-- Draining hands over one completion for each operation. -/
theorem Tagged.drained {proactor : Proactor} (tagged : proactor.Tagged) (token : Nat) :
    (proactor.cq.map Prod.fst).countP (Completion.isSendOf token) =
      proactor.origins.countP (Sqe.isSendOf token) := by
  rw [origins, List.countP_map, List.countP_filterMap]
  apply List.countP_congr
  rintro ⟨c, origin⟩ member
  obtain ⟨sqe, same, -⟩ := tagged.cq _ member
  dsimp only at same
  subst same
  simp [tagged.isSendOf member token]

/-- An operation completes. -/
theorem post_cases (proactor : Proactor) (post : Post) :
    proactor.post post = proactor ∨
      ∃ sqe c ops taken, proactor.ops[post.op]? = some sqe ∧ c.userData = sqe.userData ∧
        (ops = proactor.ops.eraseIdx post.op ∨ sqe.isRecv = true ∧ ops = proactor.ops) ∧
        proactor.post post = { proactor with ops, cq := proactor.cq ++ [(c, some sqe)], taken } := by
  unfold Proactor.post
  cases found : proactor.ops[post.op]? with
  | none => exact .inl rfl
  | some sqe =>
      refine .inr ⟨sqe, post.completion sqe, _, _, rfl, rfl, ?_, rfl⟩
      split
      next armed =>
        simp only [Bool.and_eq_true] at armed
        exact .inr ⟨armed.1, rfl⟩
      next => exact .inl rfl

theorem not_isSendOf_of_isRecv {sqe : Sqe} (isRecv : sqe.isRecv = true) (token : Nat) :
    sqe.isSendOf token = false := by
  cases sqe <;> simp_all [Sqe.isRecv, Sqe.isSendOf, Sqe.kind]

theorem post_pending (proactor : Proactor) (post : Post) :
    (∀ sqe ∈ (proactor.post post).pending, sqe ∈ proactor.pending) ∧
      ∀ token, (proactor.post post).sends token = proactor.sends token := by
  rcases proactor.post_cases post with same | ⟨sqe, c, ops, taken, found, -, left, same⟩
  · rw [same]
    exact ⟨fun _ member => member, fun _ => rfl⟩
  · have inside : sqe ∈ proactor.ops := List.mem_of_getElem? found
    have origins : ({ proactor with ops, cq := proactor.cq ++ [(c, some sqe)], taken } :
        Proactor).origins = proactor.origins ++ [sqe] := by
      simp [Proactor.origins]
    rw [same]
    constructor
    · intro other member
      simp only [pending, origins, List.mem_append, List.mem_singleton] at member ⊢
      rcases member with (queued | running) | old | rfl
      · exact .inl (.inl queued)
      · rcases left with rfl | ⟨-, rfl⟩
        · exact .inl (.inr (List.mem_of_mem_eraseIdx running))
        · exact .inl (.inr running)
      · exact .inr old
      · exact .inl (.inr inside)
    · intro token
      rw [sends_eq, sends_eq, origins]
      simp only [List.countP_append, List.countP_singleton]
      rcases left with rfl | ⟨isRecv, rfl⟩
      · obtain ⟨bound, rfl⟩ := List.getElem?_eq_some_iff.mp found
        have moved := (List.getElem_cons_eraseIdx_perm bound).countP_eq (Sqe.isSendOf token)
        rw [List.countP_cons] at moved
        omega
      · simp [not_isSendOf_of_isRecv isRecv]

/-- Entering the kernel moves operations on. -/
theorem submit_pending (proactor : Proactor) :
    (∀ sqe ∈ proactor.submit.1.pending, sqe ∈ proactor.pending) ∧
      (∀ token, proactor.submit.1.sends token = proactor.sends token) ∧
      proactor.submit.1.cq = proactor.cq := by
  unfold Proactor.submit Proactor.syscall
  cases proactor.faults proactor.calls with
  | some e => exact ⟨fun _ member => member, fun _ => rfl, rfl⟩
  | none =>
      refine ⟨?_, ?_, rfl⟩
      · intro sqe member
        simp only [pending, origins, List.mem_append, List.nil_append] at member ⊢
        rcases member with (running | queued) | old
        · exact .inl (.inr running)
        · exact .inl (.inl queued)
        · exact .inr old
      · intro token
        simp only [sends_eq, origins, List.countP_nil, List.countP_append]
        omega

theorem Tagged.of_subset {proactor proactor' : Proactor} (tagged : proactor.Tagged)
    (subset : ∀ sqe ∈ proactor'.pending, sqe ∈ proactor.pending)
    (cq : ∀ entry ∈ proactor'.cq, ∃ sqe, entry.2 = some sqe ∧ entry.1.userData = sqe.userData) :
    proactor'.Tagged :=
  ⟨fun sqe member => tagged.ops sqe (subset sqe member), cq⟩

/-- New submissions. -/
theorem pending_push {proactor proactor' : Proactor} {new : List Sqe}
    (sq : proactor'.sq = proactor.sq ++ new) (ops : proactor'.ops = proactor.ops)
    (cq : proactor'.cq = proactor.cq) :
    (∀ sqe, sqe ∈ proactor'.pending ↔ sqe ∈ proactor.pending ∨ sqe ∈ new) ∧
      ∀ token, proactor'.sends token = proactor.sends token + new.countP (Sqe.isSendOf token) := by
  constructor
  · intro sqe
    simp only [pending, origins, sq, ops, cq, List.mem_append]
    tauto
  · intro token
    simp only [sends_eq, origins, sq, ops, cq, List.countP_append]
    omega

end Proactor

section Lifetime

variable [Rustls]

/-- The memory that an operation refers to is in place. -/
def ConnectionState.Backs (conn : ConnectionState) : Sqe → Prop
  | .connect fd addr userData =>
      fd = conn.socket ∧ addr = conn.addr ∧ userData = UserData.new .connect conn.token
  | .send fd version head bytes userData =>
      .send fd version head bytes userData = conn.sendSqe ∧ conn.sendInflight = true
  | .recv .. => True

/-- What ties the kernel's operations to the slot table. -/
structure Backed (pool : Pool) : Prop where
  tagged : pool.proactor.Tagged
  backs : ∀ sqe ∈ pool.proactor.pending, sqe.isRecv = false →
    ∃ i conn, pool.connAt i = some conn ∧ sqe.userData.token = conn.token ∧ conn.Backs sqe
  once : ∀ i conn, pool.connAt i = some conn →
    pool.proactor.sends conn.token + pool.completionsBuf.countP (Completion.isSendOf conn.token) ≤
      conn.sendInflight.toNat

/-- The memory stays in place when the endpoint does and, for a send, the queue does. -/
theorem ConnectionState.Backs.kept {conn conn' : ConnectionState} {sqe : Sqe}
    (backs : conn.Backs sqe) (endpoint : conn'.toEndpoint = conn.toEndpoint)
    (queue : sqe.kind = .send → conn'.toSendQueue = conn.toSendQueue) : conn'.Backs sqe := by
  have token : conn'.token = conn.token :=
    congrArg (fun endpoint => endpoint.identity.token) endpoint
  cases sqe with
  | connect fd addr userData =>
      obtain ⟨socket, address, tagged⟩ := backs
      refine ⟨socket.trans (congrArg Endpoint.socket endpoint).symm,
        address.trans (congrArg Endpoint.addr endpoint).symm, ?_⟩
      rw [token]
      exact tagged
  | send fd version head bytes userData =>
      obtain ⟨same, inflight⟩ := backs
      have kept := queue rfl
      have sendSqe : conn'.sendSqe = conn.sendSqe := by
        simp only [ConnectionState.sendSqe, token, kept, endpoint]
      exact ⟨same.trans sendSqe.symm, (congrArg SendQueue.sendInflight kept).trans inflight⟩
  | recv => trivial

/-- What a step of a connection does to the send side. -/
inductive SendEffect (conn conn' : ConnectionState) :
    List Completion → List Sqe → Prop where
  | kept {consumed : List Completion} {new : List Sqe} :
      conn'.toSendQueue = conn.toSendQueue → (∀ sqe ∈ new, sqe.isRecv = true) →
      (∀ c ∈ consumed, c.isSend = false) → SendEffect conn conn' consumed new
  | sent (c : Completion) : c.isSend = true → conn'.sendInflight = false →
      SendEffect conn conn' [c] []
  | staged {new : List Sqe} : conn.sendInflight = false → conn'.sendInflight = false →
      (∀ sqe ∈ new, sqe.isRecv = true) → SendEffect conn conn' [] new
  | pushed {recvs : List Sqe} : conn.sendInflight = false → conn'.sendInflight = true →
      (∀ sqe ∈ recvs, sqe.isRecv = true) →
      SendEffect conn conn' [] (conn'.sendSqe :: recvs)

theorem ConnEffect.sends {proactor proactor' : Proactor} {conn conn' : ConnectionState}
    {consumed : List Completion} (effect : ConnEffect proactor conn consumed proactor' conn') :
    ∃ new, proactor'.sq = proactor.sq ++ new ∧ proactor'.ops = proactor.ops ∧
      proactor'.cq = proactor.cq ∧
      (∀ sqe ∈ new, sqe.userData = UserData.new sqe.kind conn.token) ∧
      SendEffect conn conn' consumed new := by
  have notSend {c : Completion} (known : c.userData.kind = some .connect) :
      ∀ c' ∈ [c], c'.isSend = false := by
    simp [Completion.isSend, known]
  cases effect with
  | kept keeps others =>
      exact ⟨[], by simp, rfl, rfl, by simp, .kept keeps.queue (by simp) others⟩
  | sent c isSend _ inflight =>
      exact ⟨[], by simp, rfl, rfl, by simp, .sent c isSend inflight⟩
  | @pushed _ sends recvs pushes =>
      have armed : ∀ sqe ∈ recvs, sqe.isRecv = true ∧
          sqe.userData = UserData.new sqe.kind conn.token := by
        rcases pushes.armed with rfl | ⟨ring, -, rfl⟩
        · simp
        · simp [ConnectionState.recvSqe, Sqe.isRecv, Sqe.userData, Sqe.kind]
      have token : conn'.token = conn.token :=
        congrArg (fun endpoint => endpoint.identity.token) pushes.endpoint
      refine ⟨sends ++ recvs, by simp, rfl, rfl, ?_, ?_⟩
      · intro sqe member
        rcases List.mem_append.mp member with send | recv
        · have isSend : sqe = conn'.sendSqe := by
            cases busy : conn.sendInflight with
            | true => simp [(pushes.busy busy).1] at send
            | false =>
                rcases pushes.free busy with ⟨none, -⟩ | ⟨one, -⟩
                · simp [none] at send
                · simpa [one] using send
          simp [isSend, ConnectionState.sendSqe, Sqe.userData, Sqe.kind, token]
        · exact (armed sqe recv).2
      · cases busy : conn.sendInflight with
        | true =>
            obtain ⟨rfl, queue⟩ := pushes.busy busy
            exact .kept queue (fun sqe member => (armed sqe (by simpa using member)).1) (by simp)
        | false =>
            rcases pushes.free busy with ⟨rfl, idle⟩ | ⟨rfl, inflight⟩
            · exact .staged busy idle fun sqe member => (armed sqe (by simpa using member)).1
            · exact .pushed busy inflight fun sqe member => (armed sqe member).1
  | refused c _ _ known _ _ keeps =>
      exact ⟨[], by simp, rfl, rfl, by simp, .kept keeps.queue (by simp) (notSend known)⟩
  | stuck c known _ _ _ _ _ keeps =>
      exact ⟨[], by simp, rfl, rfl, by simp, .kept keeps.queue (by simp) (notSend known)⟩
  | connected c known _ _ _ _ _ queue =>
      refine ⟨_, rfl, rfl, rfl, ?_, .kept queue ?_ (notSend known)⟩
      · simp [ConnectionState.recvSqe, Sqe.userData, Sqe.kind]
      · simp [ConnectionState.recvSqe, Sqe.isRecv]

namespace Backed

variable {pool : Pool} {handles : List ConnHandle}

/-- The kernel works on its side of the ring. -/
theorem kernel {label : PoolLabel} {proactor : Proactor} {buf : List Completion}
    (backed : Backed pool) (moved : KernelMove pool label proactor buf)
    (real : ∀ c, label ≠ .spurious c) :
    Backed { pool with proactor, completionsBuf := buf } := by
  have same (subset : ∀ sqe ∈ proactor.pending, sqe ∈ pool.proactor.pending)
      (tagged : proactor.Tagged)
      (fewer : ∀ token, proactor.sends token + buf.countP (Completion.isSendOf token) ≤
        pool.proactor.sends token + pool.completionsBuf.countP (Completion.isSendOf token)) :
      Backed { pool with proactor, completionsBuf := buf } :=
    ⟨tagged, fun sqe member => backed.backs sqe (subset sqe member),
      fun i conn found => Nat.le_trans (fewer conn.token) (backed.once i conn found)⟩
  cases moved with
  | same => exact backed
  | posted post =>
      obtain ⟨subset, count⟩ := pool.proactor.post_pending post
      apply same subset
      · apply backed.tagged.of_subset subset
        intro entry member
        rcases pool.proactor.post_cases post with unchanged | ⟨sqe, c, _, _, -, userData, -, done⟩
        · rw [unchanged] at member
          exact backed.tagged.cq entry member
        · rw [done] at member
          rcases List.mem_append.mp member with old | new
          · exact backed.tagged.cq entry old
          · rw [List.mem_singleton.mp new]
            exact ⟨sqe, rfl, userData⟩
      · intro token
        rw [count]
  | spurious c => exact absurd rfl (real c)
  | entered =>
      obtain ⟨subset, count, cq⟩ := pool.proactor.submit_pending
      apply same subset
      · exact backed.tagged.of_subset subset (cq ▸ backed.tagged.cq)
      · intro token
        rw [count]
  | drained empty =>
      have subset : ∀ sqe ∈ pool.proactor.drainCompletions.1.pending, sqe ∈ pool.proactor.pending := by
        intro sqe member
        simp only [Proactor.drainCompletions, Proactor.pending, Proactor.origins,
          List.filterMap_nil, List.append_nil] at member ⊢
        exact List.mem_append_left _ member
      apply same subset
      · exact backed.tagged.of_subset subset (by simp [Proactor.drainCompletions])
      · intro token
        have drained := backed.tagged.drained token
        simp only [Proactor.drainCompletions, Proactor.sends_eq, Proactor.origins,
          List.filterMap_nil, List.countP_nil, empty] at drained ⊢
        omega
  | dropped pump c rest buffered =>
      apply same (fun _ member => member) backed.tagged
      intro token
      rw [buffered, List.countP_cons]
      omega

/-- One connection takes a step. -/
theorem update {i : Nat} {conn conn' : ConnectionState} {proactor : Proactor}
    {consumed buf : List Completion} (backed : Backed pool) (slots : Slots pool handles)
    (found : pool.connAt i = some conn)
    (effect : ConnEffect pool.proactor conn consumed proactor conn')
    (split : pool.completionsBuf = consumed ++ buf)
    (mine : ∀ c ∈ consumed, c.userData.token = conn.token) :
    Backed (pool.update i conn conn' proactor buf) := by
  obtain ⟨new, sq, ops, cq, tags, side⟩ := effect.sends
  obtain ⟨members, count⟩ := Proactor.pending_push sq ops cq
  have endpoint := effect.endpoint
  have token : conn'.token = conn.token :=
    congrArg (fun endpoint => endpoint.identity.token) endpoint
  have small := slots.token_lt found
  have newToken (sqe : Sqe) (member : sqe ∈ new) : sqe.userData.token = conn.token := by
    rw [tags sqe member, UserData.token_new _ small]
  have limit := backed.once i conn found
  have buffered (t : Nat) : pool.completionsBuf.countP (Completion.isSendOf t) =
      consumed.countP (Completion.isSendOf t) + buf.countP (Completion.isSendOf t) := by
    rw [split, List.countP_append]
  have noSends {sqes : List Sqe} (recvs : ∀ sqe ∈ sqes, sqe.isRecv = true) (t : Nat) :
      sqes.countP (Sqe.isSendOf t) = 0 := by
    rw [List.countP_eq_zero]
    intro sqe member
    simp [Proactor.not_isSendOf_of_isRecv (recvs sqe member)]
  constructor
  case tagged =>
    refine ⟨?_, cq ▸ backed.tagged.cq⟩
    intro sqe member
    rcases (members sqe).mp member with old | fresh
    · exact backed.tagged.ops sqe old
    · rw [tags sqe fresh, UserData.kind_new]
  case backs =>
    intro sqe member notRecv
    rcases (members sqe).mp member with old | fresh
    · obtain ⟨j, owner, there, tokenOf, backs⟩ := backed.backs sqe old notRecv
      by_cases here : j = i
      · subst here
        rw [found, Option.some.injEq] at there
        subst there
        refine ⟨j, conn', by rw [Pool.connAt_update found, if_pos rfl], tokenOf.trans token.symm, ?_⟩
        apply backs.kept endpoint
        intro isSend
        have counted : 0 < pool.proactor.sends conn.token :=
          List.countP_pos_iff.mpr ⟨sqe, old, by simp [Sqe.isSendOf, isSend, tokenOf]⟩
        -- a pending send is the only one of its connection, so none has completed
        cases side with
        | kept queue => exact queue
        | sent c isSend' =>
            have used := buffered conn.token
            have one : [c].countP (Completion.isSendOf conn.token) = 1 := by
              simp [Completion.isSendOf, mine c (by simp), (decide_eq_true_eq.mp isSend')]
            have most := Bool.toNat_le conn.sendInflight
            omega
        | staged idle =>
            rw [idle, Bool.toNat_false] at limit
            omega
        | pushed idle =>
            rw [idle, Bool.toNat_false] at limit
            omega
      · refine ⟨j, owner, ?_, tokenOf, backs⟩
        rw [Pool.connAt_update found, if_neg here]
        exact there
    · refine ⟨i, conn', by rw [Pool.connAt_update found, if_pos rfl], ?_, ?_⟩
      · rw [newToken sqe fresh, token]
      · cases side with
        | kept _ recvs | staged _ _ recvs =>
            rw [recvs sqe fresh] at notRecv
            simp at notRecv
        | sent => simp at fresh
        | pushed _ inflight recvs =>
            rcases List.mem_cons.mp fresh with rfl | recv
            · exact ⟨rfl, inflight⟩
            · rw [recvs sqe recv] at notRecv
              simp at notRecv
  case once =>
    intro j now here
    show proactor.sends now.token + buf.countP (Completion.isSendOf now.token) ≤ _
    have room := buffered now.token
    rw [count]
    rcases Pool.connAt_update_cases found here with ⟨rfl, rfl⟩ | ⟨other, there⟩
    · rw [token] at room ⊢
      cases side with
      | kept queue recvs =>
          have inflight := congrArg SendQueue.sendInflight queue
          have none := noSends recvs conn.token
          rw [inflight]
          omega
      | sent c isSend inflight =>
          have one : [c].countP (Completion.isSendOf conn.token) = 1 := by
            simp [Completion.isSendOf, mine c (by simp), (decide_eq_true_eq.mp isSend)]
          have most := Bool.toNat_le conn.sendInflight
          simp only [List.countP_nil, inflight, Bool.toNat_false]
          omega
      | staged idle still recvs =>
          have none := noSends recvs conn.token
          rw [idle, Bool.toNat_false] at limit
          omega
      | pushed idle inflight recvs =>
          have none := noSends recvs conn.token
          rw [idle, Bool.toNat_false] at limit
          rw [inflight, List.countP_cons, Bool.toNat_true]
          split <;> omega
    · have differs : now.token ≠ conn.token := by
        intro same
        exact other (slots.handle_unique there found (congrArg ConnHandle.mk same))
      have none : new.countP (Sqe.isSendOf now.token) = 0 := by
        rw [List.countP_eq_zero]
        intro sqe member
        simp [Sqe.isSendOf, newToken sqe member, differs.symm]
      have still := backed.once j now there
      omega

theorem stocked {slot fresh : Bool} (backed : Backed pool) : Backed (pool.stocked slot fresh) := by
  constructor
  case tagged => exact backed.tagged
  case backs =>
    intro sqe member notRecv
    obtain ⟨i, conn, found, backs⟩ := backed.backs sqe member notRecv
    exact ⟨i, conn, by rw [Pool.connAt_stocked]; exact found, backs⟩
  case once =>
    intro i conn found
    rw [Pool.connAt_stocked] at found
    exact backed.once i conn found

/-- A connection enters with its Connect submitted. -/
theorem occupied {conn : ConnectionState} {proactor : Proactor} (backed : Backed pool)
    (inside : conn.identity.connId < pool.conns.length)
    (vacant : pool.connAt conn.identity.connId = none) (small : conn.token < 2 ^ 56)
    (unknown : ∀ i owner, pool.connAt i = some owner → owner.token ≠ conn.token)
    (empty : pool.completionsBuf = [])
    (sq : proactor.sq = pool.proactor.sq ++
      [.connect conn.socket conn.addr (UserData.new .connect conn.token)])
    (ops : proactor.ops = pool.proactor.ops) (cq : proactor.cq = pool.proactor.cq) :
    Backed (pool.occupied conn proactor) := by
  obtain ⟨members, count⟩ := Proactor.pending_push sq ops cq
  have sameSends (token : Nat) : proactor.sends token = pool.proactor.sends token := by
    rw [count]
    simp [Sqe.isSendOf, Sqe.kind]
  have stays (i : Nat) (owner : ConnectionState) (found : pool.connAt i = some owner) :
      (pool.occupied conn proactor).connAt i = some owner := by
    rw [Pool.connAt_occupied inside, if_neg]
    · exact found
    · rintro rfl
      rw [vacant] at found
      simp at found
  constructor
  case tagged =>
    refine ⟨?_, cq ▸ backed.tagged.cq⟩
    intro sqe member
    rcases (members sqe).mp member with old | new
    · exact backed.tagged.ops sqe old
    · rw [List.mem_singleton.mp new]
      exact UserData.kind_new _ _
  case backs =>
    intro sqe member notRecv
    rcases (members sqe).mp member with old | new
    · obtain ⟨i, owner, found, backs⟩ := backed.backs sqe old notRecv
      exact ⟨i, owner, stays i owner found, backs⟩
    · rw [List.mem_singleton.mp new]
      exact ⟨conn.identity.connId, conn, Pool.connAt_occupied_self inside _,
        UserData.token_new _ small, rfl, rfl, rfl⟩
  case once =>
    intro i now here
    show proactor.sends now.token + pool.completionsBuf.countP _ ≤ _
    rw [sameSends]
    rcases Pool.connAt_occupied_cases inside here with ⟨-, rfl⟩ | ⟨-, there⟩
    · have none : pool.proactor.sends now.token = 0 := by
        rw [Proactor.sends, List.countP_eq_zero]
        intro sqe member isSend
        simp only [Sqe.isSendOf, Bool.and_eq_true, decide_eq_true_eq] at isSend
        have notRecv : sqe.isRecv = false := by
          cases sqe <;> simp_all [Sqe.kind, Sqe.isRecv]
        obtain ⟨j, owner, found, token, -⟩ := backed.backs sqe member notRecv
        exact unknown j owner found (token.symm.trans isSend.2)
      simp [none, empty]
    · exact backed.once i now there

end Backed

theorem unregisterDead_queues (proactor : Proactor) {dead : ConnectionState}
    (standing : ∀ ring, dead.bufRing = some ring →
      ring.unregistered = false ∧ ring.bgid = dead.identity.bgid) :
    (Pool.unregisterDead proactor dead).1.sq = proactor.sq ∧
      (Pool.unregisterDead proactor dead).1.ops = proactor.ops ∧
      (Pool.unregisterDead proactor dead).1.cq = proactor.cq := by
  rcases unregisterDead_cases proactor standing with ⟨-, done⟩ | ⟨-, done⟩ | ⟨-, done⟩
  all_goals
    rw [done]
    exact ⟨rfl, rfl, rfl⟩

/-- The memory of a connection without outstanding operations can go. -/
theorem Backed.vacated {pool : Pool} {i : Nat} {dead : ConnectionState} (backed : Backed pool)
    (table : RingTable pool) (found : pool.connAt i = some dead)
    (unused : ∀ sqe ∈ pool.proactor.pending, sqe.isRecv = false →
      sqe.userData.token ≠ dead.token) : Backed (pool.vacated i dead) := by
  obtain ⟨sq, ops, cq⟩ := unregisterDead_queues pool.proactor (table.ring_standing found)
  have pending : (pool.vacated i dead).proactor.pending = pool.proactor.pending := by
    simp only [Pool.vacated, Proactor.pending, Proactor.origins, sq, ops, cq]
  constructor
  case tagged =>
    refine ⟨pending ▸ backed.tagged.ops, ?_⟩
    simp only [Pool.vacated, cq]
    exact backed.tagged.cq
  case backs =>
    intro sqe member notRecv
    rw [pending] at member
    obtain ⟨j, owner, there, token, backs⟩ := backed.backs sqe member notRecv
    refine ⟨j, owner, ?_, token, backs⟩
    rw [Pool.connAt_vacated found, if_neg]
    · exact there
    · rintro rfl
      rw [found, Option.some.injEq] at there
      exact unused sqe member notRecv (there ▸ token)
  case once =>
    intro j now here
    show (pool.vacated i dead).proactor.sends _ + _ ≤ _
    rw [Proactor.sends, pending]
    exact backed.once j now (Pool.connAt_vacated_cases found here).2

/-! ## Runs -/

/-- The step takes a connection out of its slot while a Connect or a Send of it is
outstanding. -/
def System.dropsMemory (sys : System) (label : PoolLabel) : Bool :=
  (sys.retiring label).any fun dead =>
    sys.pool.proactor.outstanding.any fun sqe => !sqe.isRecv && sqe.userData.token = dead.token

/-- The completion was posted by the kernel for an operation. -/
def PoolLabel.isReal : PoolLabel → Bool
  | .spurious _ => false
  | _ => true

/-- The kernel keeps to its operations, and no memory is dropped under them. -/
def System.keepsMemory (sys : System) (label : PoolLabel) : Bool :=
  label.isReal && !sys.dropsMemory label

section Runs

variable [AcceptDigest] {sys sys' : System} {label : PoolLabel}
  {out : List (ConnHandle × SinkItem)}

theorem System.backed_change (ledger : Ledger sys)
    (slots' : Slots sys'.pool sys'.handles) (backed : Backed sys.pool)
    (kept : sys.keepsMemory label = true) (change : Change sys label sys' out) :
    Backed sys'.pool := by
  simp only [keepsMemory, Bool.and_eq_true, Bool.not_eq_true'] at kept
  cases change with
  | kernel _ _ moved =>
      apply backed.kernel moved
      rintro c rfl
      simp [PoolLabel.isReal] at kept
  | step _ _ found split routed _ _ stepped =>
      apply backed.update ledger.slots found stepped.effect split
      intro c member
      exact (System.connForCompletion_spec (routed c member)).2.1.symm
  | refused => exact backed.stocked
  | seated _ _ _ _ _ empty _ _ _ _ _ inside vacant fresh =>
      refine backed.stocked.occupied inside (by rw [Pool.connAt_stocked]; exact vacant)
        (slots'.token_lt (Pool.connAt_occupied_self inside _)) ?_ empty rfl rfl rfl
      intro i owner found same
      rw [Pool.connAt_stocked] at found
      have carried : ConnHandle.fromConn owner = ConnHandle.fromConn _ := congrArg ConnHandle.mk same
      exact fresh (carried ▸ ledger.slots.seated i owner found)
  | retired _ _ found retires =>
      apply backed.vacated ledger.table found
      intro sqe member notRecv same
      have dropped : sys.dropsMemory label = true := by
        simp only [dropsMemory, retires, Option.any_some, List.any_eq_true]
        exact ⟨sqe, Proactor.mem_outstanding member notRecv, by simp [notRecv, same]⟩
      rw [dropped] at kept
      simp at kept

theorem System.backed_reach
    (reached : poolMachine.Reach (fun sys label => sys.keepsMemory label = true) sys) :
    Backed sys.pool := by
  induction reached with
  | start initial =>
      obtain ⟨_, _, _, _, rfl⟩ := System.initial_spec initial
      constructor
      case tagged => constructor <;> simp [Proactor.pending, Proactor.origins]
      case backs => simp [Proactor.pending, Proactor.origins]
      case once => simp [Pool.connAt]
  | next label reached kept ih =>
      have ledger := System.ledger_reach reached
      exact System.backed_change ledger (System.slots_move ledger.slots (System.step_move _ label)) ih
        kept (System.change ledger.slots label)

/-- Memory outlives the operation that refers to it. -/
theorem outstanding_memory_kept
    (reached : poolMachine.Reach (fun sys label => sys.keepsMemory label = true) sys) :
    ∀ sqe ∈ sys.pool.proactor.outstanding, sqe.isRecv = false →
      ∃ i conn, sys.pool.connAt i = some conn ∧ sqe.userData.token = conn.token ∧
        conn.Backs sqe :=
  fun sqe member notRecv => (System.backed_reach reached).backs sqe
    (Proactor.mem_pending_of_outstanding member) notRecv

end Runs

end Lifetime

/-! ## A removal under the kernel's feet -/

attribute [local instance] Sample.rustls Ws.Sample.digest

theorem connect_outlives_connection :
    let sys := (poolMachine.run (Sample.start 256 fun _ => none)
      [.connect Sample.config Sample.addr Sample.opening false, .remove Sample.handle]).1
    poolMachine.Reach Machine.always sys ∧
      .connect 3 Sample.addr (UserData.new .connect Sample.handle.raw) ∈
        sys.pool.proactor.outstanding ∧
      (sys.pool.conns.all fun slot => slot.isNone) = true :=
  ⟨.run_always (.start (Sample.start_initial _ (by decide))) _, by decide +kernel,
    by decide +kernel⟩

theorem outstanding_memory_kept_sending :
    let sys := (poolMachine.run (Sample.start 256 fun _ => none) (Sample.upgrade.take 7)).1
    (sys.pool.proactor.outstanding.any fun sqe => sqe.kind = .send) = true ∧
      ∀ sqe ∈ sys.pool.proactor.outstanding, sqe.isRecv = false →
        ∃ i conn, sys.pool.connAt i = some conn ∧ sqe.userData.token = conn.token ∧
          conn.Backs sqe :=
  ⟨by decide +kernel, outstanding_memory_kept (.run (.start (Sample.start_initial _ (by decide))) _
    (by decide +kernel))⟩

end Talaris
