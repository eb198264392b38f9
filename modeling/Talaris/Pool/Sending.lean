import Talaris.Pool.Outgoing

/-!
# Bytes that the kernel accepts

The kernel takes the bytes of a connection with the Sends that it completes, before the
connection hears of it.  `accepted` collects them over a run.  At any time they are what the
connection knows to be sent, followed by the front of its line.
-/

namespace Talaris

open Talaris.Basis
open Talaris.Ws

/-! ## Sends of a connection -/

/-- The bytes that a Send offers to the kernel. -/
def Sqe.bytes : Sqe → Bytes
  | send _ _ _ bytes _ => bytes
  | connect .. | recv .. => []

/-- Operations that have not completed. -/
def Proactor.submitted (proactor : Proactor) : List Sqe := proactor.sq ++ proactor.ops

/-- What the completions report as sent. -/
def reported (completions : List Completion) : Nat :=
  (completions.map fun c => c.result.toNat).sum

theorem Proactor.countP_submitted (proactor : Proactor) (p : Sqe → Bool) :
    proactor.submitted.countP p = proactor.sq.countP p + proactor.ops.countP p :=
  List.countP_append

theorem reported_nil : reported [] = 0 := rfl

theorem reported_singleton (c : Completion) : reported [c] = c.result.toNat := by
  simp [reported]

/-- A completion is posted for an operation: one of the connection's Sends, or another. -/
theorem Proactor.post_sends (proactor : Proactor) (post : Post) (token : Nat)
    (tagged : ∀ sqe ∈ proactor.submitted, sqe.userData.kind = some sqe.kind) :
    (∀ sqe ∈ (proactor.post post).submitted, sqe ∈ proactor.submitted) ∧
      ((∃ sqe c, proactor.ops[post.op]? = some sqe ∧ sqe.isSendOf token = true ∧
          c.isSendOf token = true ∧ c.result = post.result ∧
          (proactor.post post).submitted.countP (Sqe.isSendOf token) + 1 =
            proactor.submitted.countP (Sqe.isSendOf token) ∧
          (proactor.post post).cq.map Prod.fst = proactor.cq.map Prod.fst ++ [c]) ∨
        (∀ sqe, proactor.ops[post.op]? = some sqe → sqe.isSendOf token = false) ∧
          (proactor.post post).submitted.countP (Sqe.isSendOf token) =
            proactor.submitted.countP (Sqe.isSendOf token) ∧
          ((proactor.post post).cq.map Prod.fst).filter (Completion.isSendOf token) =
            (proactor.cq.map Prod.fst).filter (Completion.isSendOf token)) := by
  unfold Proactor.post
  cases found : proactor.ops[post.op]? with
  | none => exact ⟨fun _ member => member, .inr ⟨by simp, rfl, rfl⟩⟩
  | some sqe =>
      dsimp only
      have inside : sqe ∈ proactor.ops := List.mem_of_getElem? found
      have kind := tagged sqe (List.mem_append_right _ inside)
      have same : (post.completion sqe).isSendOf token = sqe.isSendOf token := by
        show (decide (sqe.userData.kind = some .send) && _) = (decide (sqe.kind = .send) && _)
        rw [kind]
        cases sqe.kind <;> rfl
      obtain ⟨bound, there⟩ := List.getElem?_eq_some_iff.mp found
      have moved := (List.getElem_cons_eraseIdx_perm bound).countP_eq (Sqe.isSendOf token)
      rw [List.countP_cons, there] at moved
      constructor
      · intro other member
        rcases List.mem_append.mp member with queued | running
        · exact List.mem_append_left _ queued
        · apply List.mem_append_right
          split at running
          next => exact running
          next => exact List.mem_of_mem_eraseIdx running
      · simp only [countP_submitted, List.map_append, List.map_cons, List.map_nil]
        cases isSend : sqe.isSendOf token with
        | true =>
            have notRecv : sqe.isRecv = false := by
              cases recv : sqe.isRecv with
              | false => rfl
              | true => simp [not_isSendOf_of_isRecv recv] at isSend
            refine .inl ⟨sqe, post.completion sqe, rfl, isSend, same.trans isSend, rfl, ?_, rfl⟩
            rw [isSend] at moved
            simp only [notRecv, Bool.false_and, Bool.false_eq_true, if_false, if_true] at moved ⊢
            omega
        | false =>
            rw [isSend] at moved same
            refine .inr ⟨?_, ?_, ?_⟩
            · rintro _ ⟨⟩
              exact isSend
            · simp only [Bool.false_eq_true, if_false] at moved
              split <;> omega
            · simp [List.filter_append, same]

section Sends

variable [Rustls]

/-- Completed Sends that the connection with this token has not heard of. -/
def Pool.unhandled (pool : Pool) (token : Nat) : List Completion :=
  (pool.proactor.cq.map Prod.fst ++ pool.completionsBuf).filter (Completion.isSendOf token)

/-- Its Sends that are outstanding: not completed, or not handled. -/
def Pool.outstandingSends (pool : Pool) (token : Nat) : Nat :=
  pool.proactor.submitted.countP (Sqe.isSendOf token) + (pool.unhandled token).length

/-- What the kernel accepts of the connection in a step. -/
def System.accepts (sys : System) (token : Nat) : PoolLabel → Bytes
  | .post post =>
      match sys.pool.proactor.ops[post.op]? with
      | none => []
      | some sqe => if sqe.isSendOf token then sqe.bytes.take post.result.toNat else []
  | _ => []

/-- What it has accepted over a run. -/
def System.accepted [AcceptDigest] (token : Nat) : System → List PoolLabel → Bytes
  | _, [] => []
  | sys, label :: labels =>
      sys.accepts token label ++ System.accepted token (poolMachine.step sys label).1 labels

/-- The kernel completes only Sends that the connection submitted, with no more bytes than were
submitted, and the connection has not closed before the step. -/
structure System.Sends (token : Nat) (sys : System) (label : PoolLabel) : Prop where
  real : ∀ c, label = .spurious c → c.isSendOf token = false
  within : ∀ post sqe, label = .post post → sys.pool.proactor.ops[post.op]? = some sqe →
    sqe.isSendOf token = true → 0 ≤ post.result ∧ post.result.toNat ≤ sqe.bytes.length
  active : ∀ i conn, sys.pool.connAt i = some conn → conn.token = token → conn.state ≠ .closed

/-- What a step of the kernel does to a Send of the connection, checked. -/
def System.honest (sys : System) (token : Nat) : PoolLabel → Bool
  | .spurious c => !c.isSendOf token
  | .post post => sys.pool.proactor.ops[post.op]?.all fun sqe =>
      !sqe.isSendOf token || (0 ≤ post.result && post.result.toNat ≤ sqe.bytes.length)
  | _ => true

instance (token : Nat) (sys : System) (label : PoolLabel) : Decidable (sys.Sends token label) :=
  decidable_of_iff (sys.honest token label = true ∧
      ∀ entry ∈ sys.pool.conns, ∀ conn ∈ entry, conn.token = token → conn.state ≠ .closed) <| by
    constructor
    · rintro ⟨honest, active⟩
      refine ⟨?_, ?_, fun i conn found => ?_⟩
      · rintro c rfl
        simpa [System.honest] using honest
      · rintro post sqe rfl found isSend
        simpa [System.honest, found, isSend] using honest
      · exact active _ (List.mem_of_getElem? (Option.join_eq_some_iff.mp found)) conn rfl
    · intro sends
      refine ⟨?_, fun entry member conn same => ?_⟩
      · cases label with
        | spurious c => simp [System.honest, sends.real c rfl]
        | post post =>
            cases found : sys.pool.proactor.ops[post.op]? with
            | none => simp [System.honest, found]
            | some sqe =>
                cases isSend : sqe.isSendOf token with
                | false => simp [System.honest, found, isSend]
                | true => simpa [System.honest, found, isSend] using
                    sends.within post sqe rfl found isSend
        | _ => rfl
      · obtain ⟨i, found⟩ := List.mem_iff_getElem?.mp member
        refine sends.active i conn ?_
        rw [Pool.connAt, found, Option.join_some]
        exact same

/-! ## The invariant -/

/-- The part of the send buffer that one Send offers. -/
def ConnectionState.front (conn : ConnectionState) : Bytes :=
  (conn.sendBuf.drop conn.sendHead).take (2 ^ 32 - 1)

/-- The line of a connection, its outstanding Send and the bytes accepted. -/
structure Flow [AcceptDigest] (conn : ConnectionState) (accepted : Bytes) (submitted : List Sqe)
    (unhandled : List Completion) : Prop where
  inUse : conn.ws.InUse
  once : submitted.countP (Sqe.isSendOf conn.token) + unhandled.length = conn.sendInflight.toNat
  backs : ∀ sqe ∈ submitted, sqe.isSendOf conn.token = true → sqe = conn.sendSqe
  sound : ∀ c ∈ unhandled, 0 ≤ c.result ∧ c.result.toNat ≤ conn.front.length
  line : ∃ sent, accepted = sent ++ conn.front.take (reported unhandled) ∧ conn.Line sent

/-- What holds of the Sends of a connection before it is opened and while it is in its slot. -/
structure Flowing [AcceptDigest] (token : Nat) (accepted : Bytes) (sys : System) : Prop where
  tagged : ∀ sqe ∈ sys.pool.proactor.submitted, sqe.userData.kind = some sqe.kind
  unknown : (⟨token⟩ : ConnHandle) ∉ sys.handles →
    accepted = [] ∧ sys.pool.outstandingSends token = 0
  flow : ∀ i conn, sys.pool.connAt i = some conn → conn.token = token →
    Flow conn accepted sys.pool.proactor.submitted (sys.pool.unhandled token)

theorem ConnectionState.front_prefix (conn : ConnectionState) : conn.front <+: conn.waiting := by
  have buffered : conn.front <+: conn.sendBuf.drop conn.sendHead := List.take_prefix _ _
  rw [waiting, unsent, List.append_assoc]
  exact buffered.trans (List.prefix_append _ _)

/-- A completed Send that reports all of `n` bytes reports the front of the line. -/
theorem ConnectionState.take_waiting (conn : ConnectionState) {n : Nat}
    (within : n ≤ conn.front.length) : conn.waiting.take n = conn.front.take n := by
  obtain ⟨rest, whole⟩ := conn.front_prefix
  rw [← whole, List.take_append_of_le_length within]

/-- The bytes reported leave the line. -/
theorem ConnectionState.Line.leaves {conn conn' : ConnectionState} {sent : Bytes} {n : Nat}
    (line : conn.Line sent)
    (within : n ≤ conn.front.length) (ws : conn'.ws = conn.ws) (tls : conn'.tls = conn.tls)
    (pendingOut : conn'.tlsPendingOut = conn.tlsPendingOut)
    (rest : conn'.sendBuf.drop conn'.sendHead = (conn.sendBuf.drop conn.sendHead).drop n) :
    conn'.Line (sent ++ conn.front.take n) := by
  have short : n ≤ (conn.sendBuf.drop conn.sendHead).length :=
    Nat.le_trans within (List.length_take_le' _ _)
  have left : conn'.waiting = conn.waiting.drop n := by
    unfold ConnectionState.waiting ConnectionState.unsent
    rw [rest, pendingOut, tls, ws, List.append_assoc, List.append_assoc,
      List.drop_append_of_le_length short]
  have whole : sent ++ conn.waiting = (sent ++ conn.front.take n) ++ conn'.waiting := by
    rw [left, ← conn.take_waiting within, List.append_assoc, List.take_append_drop]
  constructor
  · intro plain
    rw [ws, line.plain (tls ▸ plain), whole]
  · intro tls' secured record records
    rw [line.secure tls' (tls ▸ secured) record records, whole]

section Moves

variable [AcceptDigest]

namespace Flow

variable {conn : ConnectionState} {accepted : Bytes} {submitted submitted' : List Sqe}
  {unhandled : List Completion}

/-- Operations of others come and go. -/
theorem others (flow : Flow conn accepted submitted unhandled)
    (subset : ∀ sqe ∈ submitted', sqe.isSendOf conn.token = true → sqe ∈ submitted)
    (count : submitted'.countP (Sqe.isSendOf conn.token) =
      submitted.countP (Sqe.isSendOf conn.token)) :
    Flow conn accepted submitted' unhandled where
  inUse := flow.inUse
  once := count ▸ flow.once
  backs sqe member isSend := flow.backs sqe (subset sqe member isSend) isSend
  sound := flow.sound
  line := flow.line

/-- While a Send is under way, no other has completed. -/
theorem nothing_unhandled (flow : Flow conn accepted submitted unhandled) {sqe : Sqe}
    (member : sqe ∈ submitted) (isSend : sqe.isSendOf conn.token = true) : unhandled = [] := by
  have counted : 0 < submitted.countP (Sqe.isSendOf conn.token) :=
    List.countP_pos_iff.mpr ⟨sqe, member, isSend⟩
  have once := flow.once
  have most := Bool.toNat_le conn.sendInflight
  exact List.length_eq_zero_iff.mp (by omega)

/-- The kernel accepts bytes from the front of the line. -/
theorem posted (flow : Flow conn accepted submitted unhandled) {sqe : Sqe} {c : Completion}
    (member : sqe ∈ submitted) (isSend : sqe.isSendOf conn.token = true)
    (subset : ∀ sqe ∈ submitted', sqe ∈ submitted)
    (count : submitted'.countP (Sqe.isSendOf conn.token) + 1 =
      submitted.countP (Sqe.isSendOf conn.token))
    (sound : 0 ≤ c.result ∧ c.result.toNat ≤ sqe.bytes.length) :
    Flow conn (accepted ++ sqe.bytes.take c.result.toNat) submitted' [c] where
  inUse := flow.inUse
  once := by
    have once := flow.once
    rw [flow.nothing_unhandled member isSend, ← count] at once
    exact once
  backs other among := flow.backs other (subset other among)
  sound := by
    intro other among
    rw [List.mem_singleton.mp among]
    rw [flow.backs sqe member isSend] at sound
    exact sound
  line := by
    obtain ⟨sent, so_far, line⟩ := flow.line
    rw [flow.nothing_unhandled member isSend, reported_nil, List.take_zero, List.append_nil]
      at so_far
    refine ⟨sent, ?_, line⟩
    rw [so_far, reported_singleton, flow.backs sqe member isSend]
    rfl

/-- Nothing is outstanding between two Sends. -/
theorem idle (flow : Flow conn accepted submitted unhandled) (free : conn.sendInflight = false) :
    submitted.countP (Sqe.isSendOf conn.token) = 0 ∧ unhandled = [] := by
  have once := flow.once
  rw [free, Bool.toNat_false, Nat.add_eq_zero_iff, List.length_eq_zero_iff] at once
  exact once

/-- All that is accepted has been reported between two Sends. -/
theorem idle_line (flow : Flow conn accepted submitted unhandled)
    (free : conn.sendInflight = false) : conn.Line accepted := by
  obtain ⟨sent, so_far, line⟩ := flow.line
  rw [(flow.idle free).2, reported_nil, List.take_zero, List.append_nil] at so_far
  rw [so_far]
  exact line

end Flow

namespace Flow

variable {pool : Pool} {proactor : Proactor} {conn conn' : ConnectionState} {accepted : Bytes}
  {consumed buf : List Completion} {syncs : Bool} {items : List SinkItem}

/-- The connection handles its Send completion. -/
theorem sent (flow : Flow conn accepted pool.proactor.submitted (pool.unhandled conn.token))
    (active : conn.state ≠ .closed)
    (stepped : ConnStep pool.proactor conn syncs consumed proactor conn' items)
    (split : pool.completionsBuf = consumed ++ buf)
    (mine : ∀ c ∈ consumed, c.userData.token = conn.token) {c : Completion}
    (member : c ∈ consumed) (isSend : c.isSend = true) (i : Nat) :
    Flow conn' accepted proactor.submitted
      ((pool.update i conn conn' proactor buf).unhandled conn'.token) := by
  obtain ⟨new, sq, ops, cq, -, side⟩ := stepped.effect.sends
  obtain ⟨rfl, ws, settled⟩ := stepped.sent_only member isSend
  obtain ⟨result, handled⟩ := settled active
  have token : conn'.token = conn.token :=
    congrArg (fun endpoint => endpoint.identity.token) stepped.effect.endpoint
  have isSendOf : c.isSendOf conn.token = true := by
    simp only [Completion.isSend, decide_eq_true_eq] at isSend
    simp [Completion.isSendOf, isSend, mine c member]
  have before : pool.unhandled conn.token =
      ((pool.proactor.cq.map Prod.fst).filter (Completion.isSendOf conn.token) ++ [c]) ++
        buf.filter (Completion.isSendOf conn.token) := by
    rw [Pool.unhandled, split, List.filter_append, List.filter_append, List.append_assoc]
    simp [isSendOf]
  have after : (pool.update i conn conn' proactor buf).unhandled conn'.token =
      (pool.proactor.cq.map Prod.fst).filter (Completion.isSendOf conn.token) ++
        buf.filter (Completion.isSendOf conn.token) := by
    rw [token]
    show List.filter _ (proactor.cq.map Prod.fst ++ buf) = _
    rw [cq, List.filter_append]
  have once := flow.once
  have most := Bool.toNat_le conn.sendInflight
  rw [before, List.length_append, List.length_append, List.length_singleton] at once
  have none_left : (pool.proactor.cq.map Prod.fst).filter (Completion.isSendOf conn.token) = [] ∧
      buf.filter (Completion.isSendOf conn.token) = [] :=
    ⟨List.length_eq_zero_iff.mp (by omega), List.length_eq_zero_iff.mp (by omega)⟩
  rw [none_left.1, none_left.2, List.append_nil] at before after
  have within := flow.sound c (by simp [before])
  obtain ⟨so_far, total, line⟩ := flow.line
  rw [before, List.nil_append, reported_singleton] at total
  rw [after]
  cases side with
  | kept _ _ others => simp [others c member] at isSend
  | sent _ _ inflight =>
      have submitted : proactor.submitted = pool.proactor.submitted := by
        simp only [Proactor.submitted, sq, ops, List.append_nil]
      have unsent : pool.proactor.submitted.countP (Sqe.isSendOf conn.token) = 0 := by omega
      refine ⟨ws ▸ flow.inUse, ?_, ?_, by simp, so_far ++ conn.front.take c.result.toNat, ?_, ?_⟩
      · rw [submitted, token, unsent, inflight]
        rfl
      · intro sqe among ours
        rw [submitted, token] at *
        exact absurd ours (List.countP_eq_zero.mp unsent sqe among)
      · rw [total, reported_nil, List.take_zero, List.append_nil]
      · obtain ⟨ws', tls', pendingOut', -, front'⟩ := conn.onSendCqe_spec c
        obtain ⟨state, same⟩ := (conn.onSendCqe c).1.settle_eq result
        rw [handled, same]
        exact line.leaves within.2 ws' tls' pendingOut' (front' within.1)

/-- A step without a Send completion. -/
theorem produced (flow : Flow conn accepted pool.proactor.submitted (pool.unhandled conn.token))
    (small : conn.token < 2 ^ 56)
    (stepped : ConnStep pool.proactor conn syncs consumed proactor conn' items)
    (split : pool.completionsBuf = consumed ++ buf)
    (others : ∀ c ∈ consumed, c.isSend = false) (i : Nat) :
    Flow conn' accepted proactor.submitted
      ((pool.update i conn conn' proactor buf).unhandled conn'.token) := by
  obtain ⟨new, sq, ops, cq, tags, side⟩ := stepped.effect.sends
  have endpoint := stepped.effect.endpoint
  have token : conn'.token = conn.token :=
    congrArg (fun endpoint => endpoint.identity.token) endpoint
  have produces := stepped.produces others
  have inUse := (produces flow.inUse).1
  have after : (pool.update i conn conn' proactor buf).unhandled conn'.token =
      pool.unhandled conn.token := by
    have none : consumed.filter (Completion.isSendOf conn.token) = [] := by
      rw [List.filter_eq_nil_iff]
      intro c member
      have other := others c member
      simp only [Completion.isSend, decide_eq_false_iff_not] at other
      simp [Completion.isSendOf, other]
    have before : pool.unhandled conn.token =
        (pool.proactor.cq.map Prod.fst ++ buf).filter (Completion.isSendOf conn.token) := by
      rw [Pool.unhandled, split, List.filter_append, List.filter_append, none, List.nil_append,
        List.filter_append]
    rw [token, before, ← cq]
    rfl
  have counted : proactor.submitted.countP (Sqe.isSendOf conn.token) =
      pool.proactor.submitted.countP (Sqe.isSendOf conn.token) +
        new.countP (Sqe.isSendOf conn.token) := by
    simp only [Proactor.countP_submitted, sq, ops, List.countP_append]
    omega
  have members {sqe : Sqe} (member : sqe ∈ proactor.submitted) :
      sqe ∈ pool.proactor.submitted ∨ sqe ∈ new := by
    simp only [Proactor.submitted, sq, ops, List.mem_append] at member ⊢
    tauto
  have noSends {sqes : List Sqe} (recvs : ∀ sqe ∈ sqes, sqe.isRecv = true) :
      sqes.countP (Sqe.isSendOf conn.token) = 0 := by
    rw [List.countP_eq_zero]
    intro sqe member
    simp [Proactor.not_isSendOf_of_isRecv (recvs sqe member)]
  rw [after]
  cases side with
  | sent c isSend =>
      have other := others c List.mem_cons_self
      rw [isSend] at other
      cases other
  | kept queue recvs =>
      have none := noSends recvs
      have front : conn'.front = conn.front := by
        rw [ConnectionState.front, ConnectionState.front, queue]
      have sendSqe : conn'.sendSqe = conn.sendSqe := by
        simp only [ConnectionState.sendSqe, token, queue, endpoint]
      obtain ⟨sent, total, line⟩ := flow.line
      refine ⟨inUse, ?_, ?_, ?_, sent, ?_, line.produces produces flow.inUse⟩
      · rw [token, counted, none, Nat.add_zero, queue]
        exact flow.once
      · intro sqe member ours
        rw [token] at ours
        rcases members member with old | fresh
        · rw [sendSqe]
          exact flow.backs sqe old ours
        · rw [Proactor.not_isSendOf_of_isRecv (recvs sqe fresh)] at ours
          cases ours
      · rw [front]
        exact flow.sound
      · rw [front]
        exact total
  | staged free still recvs =>
      obtain ⟨unsent, nothing⟩ := flow.idle free
      have none := noSends recvs
      rw [nothing]
      refine ⟨inUse, ?_, ?_, by simp, accepted, ?_,
        (flow.idle_line free).produces produces flow.inUse⟩
      · rw [token, counted, unsent, none, still]
        rfl
      · intro sqe member ours
        have some_sent : 0 < proactor.submitted.countP (Sqe.isSendOf conn.token) :=
          List.countP_pos_iff.mpr ⟨sqe, member, token ▸ ours⟩
        omega
      · rw [reported_nil, List.take_zero, List.append_nil]
  | @pushed recvs free inflight armed =>
      obtain ⟨unsent, nothing⟩ := flow.idle free
      have none := noSends armed
      have mine : conn'.sendSqe.isSendOf conn.token = true := by
        have known : conn'.sendSqe.userData.token = conn.token := by
          rw [tags _ List.mem_cons_self, UserData.token_new _ small]
        rw [Sqe.isSendOf, known]
        simp [ConnectionState.sendSqe, Sqe.kind]
      rw [nothing]
      refine ⟨inUse, ?_, ?_, by simp, accepted, ?_,
        (flow.idle_line free).produces produces flow.inUse⟩
      · rw [token, counted, unsent, List.countP_cons_of_pos mine, none, inflight]
        rfl
      · intro sqe member ours
        rw [token] at ours
        rcases members member with old | fresh
        · exact absurd ours (List.countP_eq_zero.mp unsent sqe old)
        · rcases List.mem_cons.mp fresh with same | recv
          · exact same
          · rw [Proactor.not_isSendOf_of_isRecv (armed sqe recv)] at ours
            cases ours
      · rw [reported_nil, List.take_zero, List.append_nil]

end Flow

namespace Flowing

variable {token : Nat} {accepted : Bytes} {sys sys' : System} {label : PoolLabel}

/-- Nothing of the connection moves. -/
theorem still (flowing : Flowing token accepted sys)
    (conns : ∀ i, sys'.pool.connAt i = sys.pool.connAt i) (handles : sys'.handles = sys.handles)
    (subset : ∀ sqe ∈ sys'.pool.proactor.submitted, sqe ∈ sys.pool.proactor.submitted)
    (count : sys'.pool.proactor.submitted.countP (Sqe.isSendOf token) =
      sys.pool.proactor.submitted.countP (Sqe.isSendOf token))
    (unhandled : sys'.pool.unhandled token = sys.pool.unhandled token) :
    Flowing token accepted sys' where
  tagged sqe member := flowing.tagged sqe (subset sqe member)
  unknown := by
    rw [handles, Pool.outstandingSends, count, unhandled]
    exact flowing.unknown
  flow := by
    intro i conn found same
    rw [conns] at found
    rw [unhandled]
    subst same
    exact (flowing.flow i conn found rfl).others (fun sqe member _ => subset sqe member) count

/-- The kernel completes an operation. -/
theorem post (flowing : Flowing token accepted sys) (post : Proactor.Post)
    (sends : sys.Sends token (.post post)) :
    Flowing token (accepted ++ sys.accepts token (.post post))
      (poolMachine.step sys (.post post)).1 := by
  show Flowing token _ { sys with pool := { sys.pool with proactor := sys.pool.proactor.post post } }
  obtain ⟨subset, own | ⟨other, count, completed⟩⟩ :=
    sys.pool.proactor.post_sends post token flowing.tagged
  · obtain ⟨sqe, c, found, isSend, isSendOf, result, count, completed⟩ := own
    have running : sqe ∈ sys.pool.proactor.submitted :=
      List.mem_append_right _ (List.mem_of_getElem? found)
    have within := sends.within post sqe rfl found isSend
    have accepts : sys.accepts token (.post post) = sqe.bytes.take c.result.toNat := by
      simp only [System.accepts, found, isSend, if_true, result]
    have positive : 0 < sys.pool.outstandingSends token :=
      Nat.add_pos_left (List.countP_pos_iff.mpr ⟨sqe, running, isSend⟩) _
    rw [← result] at within
    rw [accepts]
    refine ⟨fun sqe member => flowing.tagged sqe (subset sqe member), ?_, ?_⟩
    · intro unknown
      have none := (flowing.unknown unknown).2
      omega
    · intro i conn there same
      have flow := flowing.flow i conn there same
      have nothing : sys.pool.unhandled token = [] := by
        subst same
        exact flow.nothing_unhandled running isSend
      have unhandled : Pool.unhandled
          { sys.pool with proactor := sys.pool.proactor.post post } token = [c] := by
        unfold Pool.unhandled at nothing ⊢
        rw [List.filter_append, List.append_eq_nil_iff] at nothing
        simp only [completed, List.filter_append, nothing.1, nothing.2, List.filter_cons, isSendOf,
          if_true, List.filter_nil, List.nil_append, List.append_nil]
      rw [unhandled]
      subst same
      exact flow.posted running isSend subset count within
  · have accepts : sys.accepts token (.post post) = [] := by
      cases found : sys.pool.proactor.ops[post.op]? with
      | none => simp only [System.accepts, found]
      | some sqe => simp [System.accepts, found, other sqe found]
    rw [accepts, List.append_nil]
    refine flowing.still (fun _ => rfl) rfl subset count ?_
    show List.filter _ _ = List.filter _ _
    rw [List.filter_append, List.filter_append, completed]

/-- The kernel moves on without accepting anything. -/
theorem kernel (flowing : Flowing token accepted sys) (slots : Slots sys.pool sys.handles)
    (sends : sys.Sends token label) (silent : ∀ post, label ≠ .post post) {proactor : Proactor}
    {buf : List Completion} (moved : KernelMove sys.pool label proactor buf)
    (firstErr : Option ConnectionError) (driving : Option Nat) :
    Flowing token accepted
      ⟨{ sys.pool with proactor, completionsBuf := buf }, firstErr, driving, sys.history⟩ := by
  cases moved with
  | same => exact flowing.still (fun _ => rfl) rfl (fun _ member => member) rfl rfl
  | posted post => exact absurd rfl (silent post)
  | spurious c =>
      have foreign := sends.real c rfl
      refine flowing.still (fun _ => rfl) rfl (fun _ member => member) rfl ?_
      show List.filter _ _ = List.filter _ _
      simp [Proactor.postSpurious, List.filter_append, foreign]
  | entered =>
      unfold Proactor.submit Proactor.syscall
      cases sys.pool.proactor.faults sys.pool.proactor.calls with
      | some e => exact flowing.still (fun _ => rfl) rfl (fun _ member => member) rfl rfl
      | none =>
          refine flowing.still (fun _ => rfl) rfl ?_ ?_ rfl
          · intro sqe member
            simp only [Proactor.submitted, List.nil_append, List.mem_append] at member ⊢
            exact member.symm
          · simp only [Proactor.submitted, List.nil_append, List.countP_append]
            exact Nat.add_comm _ _
  | drained empty =>
      refine flowing.still (fun _ => rfl) rfl (fun _ member => member) rfl ?_
      show List.filter _ _ = List.filter _ _
      simp [Proactor.drainCompletions, empty]
  | dropped pump c _ buffered unrouted =>
      have before : sys.pool.unhandled token =
          ((sys.pool.proactor.cq.map Prod.fst).filter (Completion.isSendOf token) ++
            [c].filter (Completion.isSendOf token)) ++
              buf.filter (Completion.isSendOf token) := by
        rw [Pool.unhandled, buffered, ← List.singleton_append, List.filter_append,
          List.filter_append, List.append_assoc]
      cases isSend : c.isSendOf token with
      | false =>
          refine flowing.still (fun _ => rfl) rfl (fun _ member => member) rfl ?_
          rw [before]
          show List.filter _ _ = _
          simp [List.filter_append, isSend]
      | true =>
          -- a Send of the connection would have found it
          have token_eq : c.userData.token = token := by
            simp only [Completion.isSendOf, Bool.and_eq_true, decide_eq_true_eq] at isSend
            exact isSend.2
          have some_unhandled : 0 < (sys.pool.unhandled token).length := by
            rw [before]
            simp [isSend]
          refine ⟨flowing.tagged, fun unknown => ?_, fun i conn found same => ?_⟩
          · have none := (flowing.unknown unknown).2
            unfold Pool.outstandingSends at none
            omega
          · rw [slots.routed found (token_eq.trans same.symm)] at unrouted
            cases unrouted

/-- One connection takes a step. -/
theorem update (flowing : Flowing token accepted sys) (slots : Slots sys.pool sys.handles)
    (sends : sys.Sends token label) {i : Nat} {conn conn' : ConnectionState} {syncs : Bool}
    {consumed buf : List Completion} {proactor : Proactor} {items : List SinkItem}
    (found : sys.pool.connAt i = some conn) (split : sys.pool.completionsBuf = consumed ++ buf)
    (mine : ∀ c ∈ consumed, c.userData.token = conn.token)
    (stepped : ConnStep sys.pool.proactor conn syncs consumed proactor conn' items)
    (pool : sys'.pool = sys.pool.update i conn conn' proactor buf)
    (handles : sys'.handles = sys.handles) : Flowing token accepted sys' := by
  obtain ⟨new, sq, ops, cq, tags, -⟩ := stepped.effect.sends
  have small := slots.token_lt found
  have kept : conn'.token = conn.token :=
    congrArg (fun endpoint => endpoint.identity.token) stepped.effect.endpoint
  have members {sqe : Sqe} (member : sqe ∈ proactor.submitted) :
      sqe ∈ sys.pool.proactor.submitted ∨ sqe ∈ new := by
    simp only [Proactor.submitted, sq, ops, List.mem_append] at member ⊢
    tauto
  have tagged : ∀ sqe ∈ proactor.submitted, sqe.userData.kind = some sqe.kind := by
    intro sqe member
    rcases members member with old | fresh
    · exact flowing.tagged sqe old
    · rw [tags sqe fresh, UserData.kind_new]
  have moved : sys'.pool.proactor = proactor := by
    rw [pool]
    rfl
  by_cases own : conn.token = token
  · subst own
    refine ⟨moved ▸ tagged, fun unknown => ?_, fun j now here same => ?_⟩
    · rw [handles] at unknown
      exact absurd (slots.seated i conn found) unknown
    · rw [moved, pool, ← same]
      rw [pool] at here
      rcases Pool.connAt_update_cases found here with ⟨rfl, rfl⟩ | ⟨other, there⟩
      · have flow := flowing.flow j conn found rfl
        by_cases hears : ∃ c ∈ consumed, c.isSend = true
        · obtain ⟨c, member, isSend⟩ := hears
          exact flow.sent (sends.active j conn found rfl) stepped split mine member isSend j
        · refine flow.produced small stepped split ?_ j
          intro c member
          simpa using fun isSend => hears ⟨c, member, isSend⟩
      · exact absurd (slots.handle_unique there found (congrArg ConnHandle.mk same)) other
  · have foreign (sqe : Sqe) (fresh : sqe ∈ new) : sqe.isSendOf token = false := by
      have known : sqe.userData.token = conn.token := by
        rw [tags sqe fresh, UserData.token_new _ small]
      rw [Sqe.isSendOf, known]
      simp [own]
    have count : proactor.submitted.countP (Sqe.isSendOf token) =
        sys.pool.proactor.submitted.countP (Sqe.isSendOf token) := by
      have none : new.countP (Sqe.isSendOf token) = 0 := by
        rw [List.countP_eq_zero]
        intro sqe fresh
        simp [foreign sqe fresh]
      simp only [Proactor.countP_submitted, sq, ops, List.countP_append, none, Nat.add_zero]
    have unhandled : sys'.pool.unhandled token = sys.pool.unhandled token := by
      have none : consumed.filter (Completion.isSendOf token) = [] := by
        rw [List.filter_eq_nil_iff]
        intro c member
        simp [Completion.isSendOf, mine c member, own]
      rw [pool, Pool.unhandled, Pool.unhandled, split, List.filter_append, List.filter_append,
        List.filter_append, none, List.nil_append]
      show (proactor.cq.map Prod.fst).filter _ ++ buf.filter _ = _
      rw [cq]
    refine ⟨moved ▸ tagged, ?_, fun j now here same => ?_⟩
    · rw [handles, Pool.outstandingSends, moved, count, unhandled]
      exact flowing.unknown
    · rw [moved, unhandled]
      rw [pool] at here
      rcases Pool.connAt_update_cases found here with ⟨-, rfl⟩ | ⟨-, there⟩
      · exact absurd (kept.symm.trans same) own
      · subst same
        refine (flowing.flow j now there rfl).others (fun sqe member ours => ?_) count
        rcases members member with old | fresh
        · exact old
        · rw [foreign sqe fresh] at ours
          cases ours

/-- A connection enters; what it has put into the line waits there. -/
theorem made {cfg : ConnectionConfig} {addr : SocketAddr} {opening : Opening}
    {conn : ConnectionState}
    (made : ConnectionState.Made cfg conn.identity addr opening conn) : conn.Line [] := by
  obtain ⟨-, -, -, queued, buf, -, fresh⟩ := newClient_fresh made.ws
  have unsent : conn.unsent = [] := by
    rw [ConnectionState.unsent, made.queue, made.pendingOut]
    rfl
  constructor
  · intro plain
    have pending : conn.ws.pendingTx = [] := by
      show conn.ws.tx.txBuf.drop _ = []
      rw [buf, List.drop_nil]
    rw [ConnectionState.waiting, unsent, plain]
    simp [WsClient.written, fresh, queued, framesOnWire, pending]
  · intro tls secured record records
    have built := made.tls
    rw [secured] at built
    rw [ConnectionState.waiting, unsent, secured]
    unfold ConnectionState.newTls at built
    split at built
    next =>
      unfold TlsAdapter.newClientWithConfig at built
      split at built
      next => cases built
      next =>
        split at built
        next => cases built
        next session hello connected =>
          simp only [Except.map, Except.ok.injEq, Option.some.injEq] at built
          subst built
          simpa using records.connect _ _ _ _ connected
    next => cases built

/-- A connection takes a slot. -/
theorem seated (flowing : Flowing token accepted sys) {slot fresh : Bool} {conn : ConnectionState}
    {cfg : ConnectionConfig} {addr : SocketAddr} {opening : Opening} {driving : Option Nat}
    {proactor : Proactor} (made : ConnectionState.Made cfg conn.identity addr opening conn)
    (inside : conn.identity.connId < (sys.pool.stocked slot fresh).conns.length)
    (unknown : ConnHandle.fromConn conn ∉ sys.handles)
    (sq : proactor.sq = sys.pool.proactor.sq ++
      [Sqe.connect conn.socket conn.addr (UserData.new .connect conn.token)])
    (ops : proactor.ops = sys.pool.proactor.ops) (cq : proactor.cq = sys.pool.proactor.cq) :
    Flowing token accepted
      ⟨(sys.pool.stocked slot fresh).occupied conn proactor, sys.firstErr, driving,
        sys.history ++ [.opened (ConnHandle.fromConn conn) conn.ws conn.tls.isNone]⟩ := by
  have members {sqe : Sqe} (member : sqe ∈ proactor.submitted) :
      sqe ∈ sys.pool.proactor.submitted ∨
        sqe = .connect conn.socket conn.addr (UserData.new .connect conn.token) := by
    simp only [Proactor.submitted, sq, ops, List.mem_append, List.mem_singleton] at member ⊢
    tauto
  have count : proactor.submitted.countP (Sqe.isSendOf token) =
      sys.pool.proactor.submitted.countP (Sqe.isSendOf token) := by
    simp [Proactor.countP_submitted, sq, ops, List.countP_append, Sqe.isSendOf, Sqe.kind]
  have unhandled : ((sys.pool.stocked slot fresh).occupied conn proactor).unhandled token =
      sys.pool.unhandled token := by
    show List.filter _ (proactor.cq.map Prod.fst ++ sys.pool.completionsBuf) = _
    rw [cq]
    rfl
  refine ⟨fun sqe member => ?_, fun still => ?_, fun i now here same => ?_⟩
  · rcases members member with old | rfl
    · exact flowing.tagged sqe old
    · exact UserData.kind_new _ _
  · have before : (⟨token⟩ : ConnHandle) ∉ sys.handles := by
      intro member
      apply still
      simp [System.handles, List.filterMap_append] at member ⊢
      exact .inl member
    obtain ⟨nothing, none⟩ := flowing.unknown before
    refine ⟨nothing, ?_⟩
    show proactor.submitted.countP _ + _ = 0
    rw [count, unhandled]
    exact none
  · show Flow now accepted proactor.submitted
      (((sys.pool.stocked slot fresh).occupied conn proactor).unhandled token)
    rw [unhandled]
    rcases Pool.connAt_occupied_cases inside here with ⟨-, rfl⟩ | ⟨-, there⟩
    · subst same
      obtain ⟨nothing, none⟩ := flowing.unknown unknown
      rw [Pool.outstandingSends, Nat.add_eq_zero_iff, List.length_eq_zero_iff] at none
      have unsent : proactor.submitted.countP (Sqe.isSendOf now.token) = 0 := count.trans none.1
      rw [none.2, nothing]
      refine ⟨WsClient.newClient_inUse made.ws, ?_, ?_, by simp, [], by simp [reported_nil],
        Flowing.made made⟩
      · rw [unsent, made.queue]
        rfl
      · intro sqe member ours
        exact absurd ours (List.countP_eq_zero.mp unsent sqe member)
    · rw [Pool.connAt_stocked] at there
      subst same
      refine (flowing.flow i now there rfl).others (fun sqe member ours => ?_) count
      rcases members member with old | rfl
      · exact old
      · simp [Sqe.isSendOf, Sqe.kind] at ours

/-- A dead connection leaves its slot. -/
theorem vacated (flowing : Flowing token accepted sys) (table : RingTable sys.pool)
    {dead : ConnectionState} {driving : Option Nat}
    (found : sys.pool.connAt dead.identity.connId = some dead) :
    Flowing token accepted
      { sys with pool := sys.pool.vacated dead.identity.connId dead, driving } := by
  obtain ⟨sq, ops, cq⟩ := unregisterDead_queues sys.pool.proactor (table.ring_standing found)
  have submitted : (sys.pool.vacated dead.identity.connId dead).proactor.submitted =
      sys.pool.proactor.submitted := by
    simp only [Pool.vacated, Proactor.submitted, sq, ops]
  have unhandled : (sys.pool.vacated dead.identity.connId dead).unhandled token =
      sys.pool.unhandled token := by
    simp only [Pool.vacated, Pool.unhandled, cq]
  refine ⟨?_, ?_, fun i now here same => ?_⟩
  · dsimp only
    rw [submitted]
    exact flowing.tagged
  · show _ → _ ∧ (sys.pool.vacated dead.identity.connId dead).outstandingSends token = 0
    rw [Pool.outstandingSends, submitted, unhandled]
    exact flowing.unknown
  · dsimp only
    rw [submitted, unhandled]
    exact flowing.flow i now (Pool.connAt_vacated_cases found here).2 same

/-- One step of the machine. -/
theorem step (flowing : Flowing token accepted sys) (ledger : Ledger sys)
    (sends : sys.Sends token label) :
    Flowing token (accepted ++ sys.accepts token label) (poolMachine.step sys label).1 := by
  by_cases posts : ∃ post, label = .post post
  · obtain ⟨completed, rfl⟩ := posts
    exact flowing.post completed sends
  · have silent : ∀ post, label ≠ .post post := fun post same => posts ⟨post, same⟩
    have nothing : sys.accepts token label = [] := by
      cases label with
      | post completed => exact absurd rfl (silent completed)
      | _ => rfl
    rw [nothing, List.append_nil]
    have change := System.change ledger.slots label
    generalize poolMachine.step sys label = next at change
    obtain ⟨sys', out⟩ := next
    cases change with
    | kernel firstErr driving moved =>
        exact flowing.kernel ledger.slots sends silent moved firstErr driving
    | step _ _ found split routed _ _ stepped =>
        refine flowing.update ledger.slots sends found split ?_ stepped rfl
          (handles_recorded _ _ _ _)
        intro c member
        exact (System.connForCompletion_spec (routed c member)).2.1.symm
    | refused =>
        exact flowing.still (fun i => Pool.connAt_stocked _ _ _ i) rfl (fun _ member => member) rfl
          rfl
    | seated _ _ _ _ _ _ _ made _ _ _ inside _ unknown =>
        exact flowing.seated made inside unknown rfl rfl rfl
    | retired _ _ found => exact flowing.vacated ledger.table found

/-- A whole run. -/
theorem run (flowing : Flowing token accepted sys)
    (reached : poolMachine.Reach Machine.always sys) (labels : List PoolLabel)
    (sound : poolMachine.Admitted (System.Sends token) sys labels) :
    Flowing token (accepted ++ sys.accepted token labels) (poolMachine.run sys labels).1 := by
  induction labels generalizing sys accepted with
  | nil =>
      rw [System.accepted, List.append_nil]
      exact flowing
  | cons label labels ih =>
      obtain ⟨first, later⟩ := sound
      have stepped := flowing.step (System.ledger_reach reached) first
      have rest := ih stepped (.next label reached trivial) later
      rw [List.append_assoc] at rest
      exact rest

/-- Before anything runs. -/
theorem initially (initial : poolMachine.initial sys) : Flowing token [] sys := by
  obtain ⟨_, _, _, _, rfl⟩ := System.initial_spec initial
  exact ⟨by simp [Proactor.submitted], fun _ => ⟨rfl, rfl⟩, by simp [Pool.connAt]⟩

end Flowing

/-- While a Send is under way, its part of the send buffer stays. -/
theorem System.sendQueue_kept {sys : System} (slots : Slots sys.pool sys.handles)
    (label : PoolLabel) {i : Nat} {conn conn' : ConnectionState}
    (found : sys.pool.connAt i = some conn)
    (found' : (poolMachine.step sys label).1.pool.connAt i = some conn')
    (busy : conn.sendInflight = true) (busy' : conn'.sendInflight = true) :
    conn'.toSendQueue = conn.toSendQueue := by
  have untouched (same : sys.pool.connAt i = some conn') : conn'.toSendQueue = conn.toSendQueue := by
    rw [found, Option.some.injEq] at same
    rw [same]
  have change := System.change slots label
  generalize poolMachine.step sys label = next at change found'
  obtain ⟨sys', out⟩ := next
  cases change with
  | kernel => exact untouched found'
  | step _ _ there _ _ _ _ stepped =>
      rcases Pool.connAt_update_cases there found' with ⟨rfl, rfl⟩ | ⟨-, same⟩
      · rw [found, Option.some.injEq] at there
        subst there
        obtain ⟨_, -, -, -, -, side⟩ := stepped.effect.sends
        cases side with
        | kept queue => exact queue
        | sent _ _ idle | staged _ idle =>
            rw [idle] at busy'
            cases busy'
        | pushed idle =>
            rw [idle] at busy
            cases busy
      · exact untouched same
  | refused =>
      rw [Pool.connAt_stocked] at found'
      exact untouched found'
  | seated _ _ _ _ _ _ _ _ _ _ _ inside vacant =>
      rcases Pool.connAt_occupied_cases inside found' with ⟨rfl, -⟩ | ⟨-, same⟩
      · rw [vacant] at found
        cases found
      · rw [Pool.connAt_stocked] at same
        exact untouched same
  | retired _ _ there => exact untouched (Pool.connAt_vacated_cases there found').2

/-- As long as the connection has not closed, the kernel accepts each byte once and in order, from
one Send at a time, whose bytes stay where they are. -/
theorem sent_once_in_order {start : System} (initial : poolMachine.initial start) {token : Nat}
    {labels : List PoolLabel}
    (sends : poolMachine.Admitted (System.Sends token) start labels) :
    let sys := (poolMachine.run start labels).1
    let accepted := start.accepted token labels
    ∀ i conn, sys.pool.connAt i = some conn → conn.token = token →
      (conn.tls = none → accepted <+: conn.ws.written) ∧
      (∀ tls, conn.tls = some tls → ∀ record, Rustls.Records record →
        accepted <+: record tls.conn.session) ∧
      sys.pool.outstandingSends token = conn.sendInflight.toNat ∧
      (∀ sqe ∈ sys.pool.proactor.submitted, sqe.isSendOf token = true → sqe = conn.sendSqe) ∧
      ∀ label conn', (poolMachine.step sys label).1.pool.connAt i = some conn' →
        conn.sendInflight = true → conn'.sendInflight = true →
          conn'.toSendQueue = conn.toSendQueue := by
  intro sys accepted i conn found same
  have flowing : Flowing token accepted sys :=
    (Flowing.initially initial).run (.start initial) labels sends
  have slots := System.slots_reach ((Machine.Reach.start initial).run_always labels)
  obtain ⟨-, once, backs, -, sent, total, line⟩ := flowing.flow i conn found same
  have taken : accepted <+: sent ++ conn.waiting := by
    rw [total]
    exact (List.prefix_append_right_inj sent).mpr ((List.take_prefix _ _).trans conn.front_prefix)
  subst same
  refine ⟨fun plain => ?_, fun tls secured record records => ?_, once, backs, ?_⟩
  · rw [line.plain plain]
    exact taken
  · rw [line.secure tls secured record records]
    exact taken
  · intro label conn' found' busy busy'
    exact System.sendQueue_kept slots label found found' busy busy'

end Moves

end Sends

/-! ## A secured connection -/

namespace Sample

/-- A session is all that it has emitted: the hello, an answer for every read and a record, with
its header, for every write. -/
@[reducible] def logging : Rustls where
  Session := Bytes
  Config := Unit
  validServerName _ := true
  connect _ _ := .ok ([22, 3, 1], [22, 3, 1])
  wantsRead _ := true
  readTls session bytes := (session, .ok bytes.length)
  processNewPackets session := (session ++ [20, 3, 3], [], [20, 3, 3], .ok false)
  readerEnd _ := .ok ()
  write session _ bytes :=
    let record := 23 :: 3 :: 3 :: toBe 2 bytes.length ++ bytes
    (session ++ record, bytes.length, record)
  isHandshaking _ := false
  alpnProtocol _ := none

attribute [local instance] logging Ws.Sample.digest

theorem logging_records : Rustls.Records fun session => session where
  connect := by
    rintro config name session hello ⟨⟩
    rfl
  readTls _ _ := rfl
  processNewPackets _ := rfl
  write _ _ _ := rfl

def securedConfig : ConnectionConfig :=
  { host := Ws.Sample.config.host, port := 443, path := Ws.Sample.config.path, useTls := true,
    bufRingEntries := 8 }

def secured : System :=
  ⟨⟨⟨256, true, [], [], [], [], 0, fun _ => none, 0, []⟩, [], [], [], [], 0, 0, 0, [], 0⟩, none,
    none, []⟩

/-- The kernel accepts two bytes of the hello.  An answer goes into the line before the Send
completes, and the rest follows. -/
def interleaved : List PoolLabel :=
  [.connect securedConfig addr opening false, .enter, .post ⟨0, 0, 0, []⟩, .drain, .dispatch .data,
    .submit 0, .enter, .post ⟨1, 2, 0, []⟩, .post ⟨0, 1, 3, [7]⟩, .drain, .dispatch .data,
    .dispatch .data, .submit 0, .enter, .post ⟨1, 6, 0, []⟩]

theorem secured_initial : poolMachine.initial secured :=
  ⟨⟨{ sqEntries := 256 }, 0⟩, true, fun _ => none, rfl, rfl, rfl, rfl⟩

end Sample

attribute [local instance] Sample.logging Ws.Sample.digest

theorem sent_once_in_order_secured :
    let sys := (poolMachine.run Sample.secured Sample.interleaved).1
    Sample.secured.accepted Sample.handle.raw Sample.interleaved = [22, 3, 1, 20, 3, 3, 23, 3] ∧
      ∃ conn tls, sys.pool.connAt 0 = some conn ∧ conn.tls = some tls ∧
        Sample.secured.accepted Sample.handle.raw Sample.interleaved <+: tls.conn.session ∧
        sys.pool.outstandingSends Sample.handle.raw = conn.sendInflight.toNat := by
  have seated : (((poolMachine.run Sample.secured Sample.interleaved).1.pool.connAt 0).any
      fun conn => decide (conn.token = Sample.handle.raw) && conn.tls.isSome) = true := by
    decide +kernel
  obtain ⟨conn, found, known⟩ := (Option.any_eq_true _ _).mp seated
  rw [Bool.and_eq_true, decide_eq_true_eq, Option.isSome_iff_exists] at known
  obtain ⟨same, tls, secured⟩ := known
  have sends : poolMachine.Admitted (System.Sends Sample.handle.raw) Sample.secured
      Sample.interleaved := by decide +kernel
  obtain ⟨-, emitted, once, -⟩ := sent_once_in_order Sample.secured_initial sends 0 conn found same
  exact ⟨by decide +kernel, conn, tls, found, secured,
    emitted tls secured _ Sample.logging_records, once⟩

end Talaris
