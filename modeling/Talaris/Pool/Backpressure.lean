import Talaris.Connection.Connect
import Talaris.Connection.Outbound
import Talaris.Pool.Opening

/-!
# A full submission queue

The submit phase lets every connection push a send and a receive.  `SqFull` means "submit and
try again", but `submit_conn_ops` treats it like any other error: the connection is closed.
Which connections that hits depends on what the connections in the slots before them push.
-/

namespace Talaris

open Talaris.Basis
open Talaris.Ws

section Backpressure

variable [Rustls]

/-! ## What a connection wants to push -/

namespace ConnectionState

/-- The layers can take the pending bytes, unless a send is in flight and they are not asked. -/
def egressWorks (conn : ConnectionState) : Bool := conn.sendInflight || conn.egress.isOk

/-- The kernel has the receive mode of the connection. -/
def recvSupported (conn : ConnectionState) (bundle : Bool) : Bool :=
  conn.cfg.recvMode ≠ .multishotBundle || bundle

/-- There is something to send and no send in flight. -/
def wantsSend (conn : ConnectionState) : Bool :=
  !conn.quiet && !conn.sendInflight &&
    conn.egress.toOption.any fun bytes => !(conn.unsent ++ bytes).isEmpty

/-- There is a ring and no receive armed on it. -/
def wantsRecv (conn : ConnectionState) (bundle : Bool) : Bool :=
  !conn.quiet && conn.egressWorks && !conn.multishotArmed && conn.bufRing.isSome &&
    conn.recvSupported bundle

/-- Submissions of one submit phase. -/
def needs (conn : ConnectionState) (bundle : Bool) : Nat :=
  conn.wantsSend.toNat + (conn.wantsRecv bundle).toNat

/-- Nothing but the queue can fail in the submit phase. -/
def healthy (conn : ConnectionState) (bundle : Bool) : Bool :=
  conn.quiet ||
    conn.egressWorks &&
      (conn.multishotArmed || conn.bufRing.isNone || conn.recvSupported bundle)

/-- Everything there is to send, staged or not. -/
def outbound (conn : ConnectionState) : Bytes :=
  conn.unsent ++ (conn.egress.toOption.getD [])

/-- The connection goes on: no byte is lost, and what it wanted to push is pushed or still
wanted. -/
structure Served (conn conn' : ConnectionState) (bundle : Bool) : Prop where
  state : conn'.state = conn.state
  bytes : conn.outbound <+: conn'.outbound
  send : conn.wantsSend = true → conn'.sendInflight = true ∨ conn'.wantsSend = true
  recv : conn.wantsRecv bundle = true →
    conn'.multishotArmed = true ∨ conn'.wantsRecv bundle = true

end ConnectionState

/-! ## One connection -/

namespace ConnectionState

theorem wantsSend_iff {conn : ConnectionState} :
    conn.wantsSend = true ↔ conn.quiet = false ∧ conn.sendInflight = false ∧
      ∃ bytes, conn.egress = .ok bytes ∧ conn.unsent ++ bytes ≠ [] := by
  unfold wantsSend
  cases egress : conn.egress with
  | error e => simp [Except.toOption]
  | ok bytes => simp [Except.toOption, and_assoc]

theorem wantsRecv_iff {conn : ConnectionState} {bundle : Bool} :
    conn.wantsRecv bundle = true ↔ conn.quiet = false ∧ conn.egressWorks = true ∧
      conn.multishotArmed = false ∧ conn.bufRing.isSome ∧ conn.recvSupported bundle = true := by
  simp [wantsRecv, and_assoc]

/-- The part of a connection that the receive side of the submit phase looks at. -/
structure SameRecv (conn conn' : ConnectionState) : Prop where
  endpoint : conn'.toEndpoint = conn.toEndpoint
  state : conn'.state = conn.state
  ring : conn'.bufRing = conn.bufRing
  armed : conn'.multishotArmed = conn.multishotArmed

theorem Staged.sameRecv {conn conn' : ConnectionState} (staged : conn.Staged conn') :
    conn.SameRecv conn' := ⟨staged.endpoint, staged.state, staged.ring, staged.armed⟩

theorem SameRecv.quiet {conn conn' : ConnectionState} (same : conn.SameRecv conn') :
    conn'.quiet = conn.quiet := by
  simp only [ConnectionState.quiet, same.state]

/-- The send side gets through: what the layers accept is staged, and pushed if there is
anything. -/
theorem trySubmitSend_served {conn : ConnectionState} {proactor : Proactor}
    (works : conn.quiet = true ∨ conn.egressWorks = true)
    (room : conn.wantsSend = true → proactor.sq.length < proactor.sqEntries) :
    ∃ conn₁ sends,
      conn.trySubmitSend proactor =
        (conn₁, { proactor with sq := proactor.sq ++ sends }, .ok ()) ∧
      sends.length = conn.wantsSend.toNat ∧ conn.SameRecv conn₁ ∧
      conn.outbound <+: conn₁.outbound ∧ (conn.wantsSend = true → conn₁.sendInflight = true) := by
  unfold trySubmitSend
  split
  next idle =>
    have unwanted : conn.wantsSend = false := by
      rw [← Bool.not_eq_true, wantsSend_iff]
      rintro ⟨awake, free, -⟩
      simp [awake, free] at idle
    exact ⟨conn, [], by simp, by simp [unwanted], ⟨rfl, rfl, rfl, rfl⟩, List.prefix_rfl,
      by simp [unwanted]⟩
  next busy =>
    simp only [not_or, Bool.not_eq_true] at busy
    obtain ⟨free, awake⟩ := busy
    have accepted : conn.egress.isOk = true := by
      simpa [egressWorks, free] using works.resolve_left (by simp [awake])
    have spec := conn.stageSend_spec
    have staged := conn.stageSend_staged
    cases egress : conn.egress with
    | error e => simp [egress, Except.isOk, Except.toBool] at accepted
    | ok bytes =>
        simp only [egress] at spec
        generalize conn.stageSend = outcome at spec staged
        obtain ⟨conn₁, result⟩ := outcome
        obtain ⟨rfl, all⟩ := spec
        have same : conn.SameRecv conn₁ := staged.sameRecv
        have all : conn₁.StagedAs (conn.unsent ++ bytes) := all
        have bytes_eq : conn.outbound = conn₁.unsent := by
          rw [all.unsent, ConnectionState.outbound, egress]
          rfl
        have kept : conn.outbound <+: conn₁.outbound := by
          rw [bytes_eq]
          exact List.prefix_append _ _
        dsimp only
        have wants : conn.wantsSend = true ↔ conn₁.sendBuf ≠ [] := by
          rw [wantsSend_iff, egress, all.buf]
          simp [awake, free]
        split
        next empty =>
          have nothing : conn₁.sendBuf = [] := by
            rw [all.head, Nat.sub_zero, List.length_eq_zero_iff] at empty
            exact empty
          have unwanted : conn.wantsSend = false := by
            rw [← Bool.not_eq_true, wants]
            simp [nothing]
          exact ⟨conn₁, [], by simp, by simp [unwanted], same, kept, by simp [unwanted]⟩
        next remaining =>
          have wanted : conn.wantsSend = true := by
            rw [wants]
            rintro nothing
            exact remaining (by simp [nothing])
          rw [Proactor.push, if_pos (room wanted)]
          exact ⟨{ conn₁ with sendInflight := true }, [conn₁.sendSqe], rfl, by simp [wanted],
            ⟨same.endpoint, same.state, same.ring, same.armed⟩, kept, fun _ => rfl⟩

/-- The send side fails: in the layers, or because there is no room. -/
theorem trySubmitSend_fails {conn : ConnectionState} {proactor : Proactor}
    (fails : (conn.quiet = false ∧ conn.egressWorks = false) ∨
      (conn.wantsSend = true ∧ proactor.sqEntries ≤ proactor.sq.length)) :
    ∃ conn₁ e, conn.trySubmitSend proactor = (conn₁, proactor, .error e) := by
  have spec := conn.stageSend_spec
  rcases fails with ⟨awake, broken⟩ | ⟨wanted, full⟩
  · simp only [egressWorks, Bool.or_eq_false_iff] at broken
    obtain ⟨free, refused⟩ := broken
    unfold trySubmitSend
    rw [if_neg (by simp [awake, free])]
    cases egress : conn.egress with
    | ok bytes => simp [egress, Except.isOk, Except.toBool] at refused
    | error e =>
        simp only [egress] at spec
        generalize conn.stageSend = outcome at spec
        obtain ⟨conn₁, result⟩ := outcome
        obtain rfl : result = .error e := spec
        exact ⟨conn₁, e, rfl⟩
  · obtain ⟨awake, free, bytes, egress, some⟩ := wantsSend_iff.mp wanted
    simp only [egress] at spec
    unfold trySubmitSend
    rw [if_neg (by simp [awake, free])]
    generalize conn.stageSend = outcome at spec
    obtain ⟨conn₁, result⟩ := outcome
    obtain ⟨rfl, all⟩ := spec
    dsimp only
    rw [if_neg, Proactor.push, if_neg (Nat.not_lt.mpr full)]
    · exact ⟨conn₁, .proactor .sqFull, rfl⟩
    · rw [all.head, all.buf, Nat.sub_zero, List.length_eq_zero_iff]
      exact some

/-- The receive side has nothing to do, pushes, or fails. -/
theorem tryRearmMultishot_spec (conn : ConnectionState) (proactor : Proactor) :
    ((conn.quiet = true ∨ conn.multishotArmed = true ∨ conn.bufRing = none) ∧
        conn.tryRearmMultishot proactor = (conn, proactor, .ok ())) ∨
      (conn.quiet = false ∧ conn.multishotArmed = false ∧ conn.bufRing.isSome ∧
        ((conn.recvSupported proactor.bundle = true ∧ proactor.sq.length < proactor.sqEntries ∧
            ∃ conn₁ sqe, conn.tryRearmMultishot proactor =
                (conn₁, { proactor with sq := proactor.sq ++ [sqe] }, .ok ()) ∧
              conn₁.state = conn.state ∧ conn₁.outbound = conn.outbound ∧
              conn₁.sendInflight = conn.sendInflight ∧ conn₁.multishotArmed = true) ∨
          ((conn.recvSupported proactor.bundle = false ∨ proactor.sqEntries ≤ proactor.sq.length) ∧
            ∃ e, conn.tryRearmMultishot proactor = (conn, proactor, .error e)))) := by
  unfold tryRearmMultishot
  split
  next idle =>
    refine .inl ⟨?_, rfl⟩
    rcases idle with armed | asleep
    · exact .inr (.inl armed)
    · exact .inl asleep
  next busy =>
    simp only [not_or, Bool.not_eq_true] at busy
    obtain ⟨unarmed, awake⟩ := busy
    split
    next missing => exact .inl ⟨.inr (.inr missing), rfl⟩
    next ring holds =>
      refine .inr ⟨awake, unarmed, by simp [holds], ?_⟩
      have arming : conn.armingFails proactor = true ↔
          conn.recvSupported proactor.bundle = false ∨ proactor.sqEntries ≤ proactor.sq.length := by
        simp only [armingFails, recvSupported, Proactor.supportsRecvsendBundle, Bool.or_eq_true,
          decide_eq_true_eq]
        cases proactor.bundle <;> by_cases mode : conn.cfg.recvMode = .multishotBundle <;> simp [mode]
      rcases conn.submitRecvForMode_spec proactor ring.bgid with ⟨able, pushed⟩ | ⟨unable, e, refused⟩
      · rw [← Bool.not_eq_true, arming, not_or, Bool.not_eq_false, Nat.not_le] at able
        rw [pushed]
        exact .inl ⟨able.1, able.2, _, _, rfl, rfl, rfl, rfl, rfl⟩
      · rw [refused]
        exact .inr ⟨arming.mp unable, _, rfl⟩

/-- The submit phase of one connection. -/
def submitOps (conn : ConnectionState) (proactor : Proactor) :
    ConnectionState × Proactor × Except ConnectionError Unit :=
  match conn.trySubmitSend proactor with
  | (conn, proactor, .error e) => (conn, proactor, .error e)
  | (conn, proactor, .ok ()) => conn.tryRearmMultishot proactor

/-- The submissions of a connection have room in the queue. -/
def Fits (conn : ConnectionState) (proactor : Proactor) : Prop :=
  conn.needs proactor.bundle = 0 ∨
    proactor.sq.length + conn.needs proactor.bundle ≤ proactor.sqEntries

/-- With room everything is pushed, and nothing but a layer of its own can fail the connection;
without room the queue is full and the connection fails. -/
structure Submitted (conn : ConnectionState) (proactor : Proactor) (conn' : ConnectionState)
    (proactor' : Proactor) (result : Except ConnectionError Unit) : Prop where
  entries : proactor'.sqEntries = proactor.sqEntries
  bundle : proactor'.bundle = proactor.bundle
  pushed : conn.Fits proactor →
    proactor'.sq.length = proactor.sq.length + conn.needs proactor.bundle
  served : conn.Fits proactor → conn.healthy proactor.bundle = true →
    result = .ok () ∧ conn.Served conn' proactor.bundle
  failed : ¬ conn.Fits proactor →
    proactor.sqEntries ≤ proactor'.sq.length ∧ ∃ e, result = .error e

/-- The send side works, and the receive side follows. -/
theorem submitOps_rearm {conn conn₁ : ConnectionState} {proactor : Proactor} {sends : List Sqe}
    (works : conn.quiet = true ∨ conn.egressWorks = true)
    (sent : conn.trySubmitSend proactor =
      (conn₁, { proactor with sq := proactor.sq ++ sends }, .ok ()))
    (count : sends.length = conn.wantsSend.toNat) (same : conn.SameRecv conn₁)
    (bytes : conn.outbound <+: conn₁.outbound)
    (inflight : conn.wantsSend = true → conn₁.sendInflight = true)
    (room : conn.wantsSend = true → proactor.sq.length < proactor.sqEntries) :
    conn.Submitted proactor (conn.submitOps proactor).1 (conn.submitOps proactor).2.1
      (conn.submitOps proactor).2.2 := by
  unfold submitOps
  rw [sent]
  dsimp only
  have total : conn.needs proactor.bundle =
    conn.wantsSend.toNat + (conn.wantsRecv proactor.bundle).toNat := rfl
  have supported : conn₁.recvSupported proactor.bundle = conn.recvSupported proactor.bundle := by
    have endpoint := same.endpoint
    simp only [recvSupported]
    rw [endpoint]
  have queued : (proactor.sq ++ sends).length = proactor.sq.length + conn.wantsSend.toNat := by
    rw [List.length_append, count]
  have most := Bool.toNat_le conn.wantsSend
  have sendFits : conn.wantsSend.toNat = 0 ∨
      proactor.sq.length + conn.wantsSend.toNat ≤ proactor.sqEntries := by
    cases wanted : conn.wantsSend with
    | false => exact .inl rfl
    | true => exact .inr (room wanted)
  rcases conn₁.tryRearmMultishot_spec { proactor with sq := proactor.sq ++ sends } with
    ⟨idle, done⟩ | ⟨awake, unarmed, ring, ⟨able, fits, conn₂, sqe, done, state, kept, sending, armed⟩ |
      ⟨unable, e, done⟩⟩
  · have unwanted : conn.wantsRecv proactor.bundle = false := by
      rw [← Bool.not_eq_true, wantsRecv_iff, ← same.quiet, ← same.armed, ← same.ring]
      rintro ⟨awake, -, unarmed, ring, -⟩
      rcases idle with asleep | armed | missing
      · simp [asleep] at awake
      · simp [armed] at unarmed
      · simp [missing] at ring
    rw [done]
    constructor
    case entries => rfl
    case bundle => rfl
    case pushed => simp [queued, total, unwanted]
    case served =>
      intro _ _
      exact ⟨rfl, same.state, bytes, fun wanted => .inl (inflight wanted), by simp [unwanted]⟩
    case failed =>
      intro unfit
      exact absurd (by simpa [Fits, total, unwanted] using sendFits) unfit
  · have wanted : conn.wantsRecv proactor.bundle = true := by
      rw [wantsRecv_iff, ← same.quiet, ← same.armed, ← same.ring, ← supported]
      refine ⟨awake, works.resolve_left ?_, unarmed, ring, able⟩
      rw [← same.quiet, awake]
      simp
    rw [done]
    constructor
    case entries => rfl
    case bundle => rfl
    case pushed =>
      intro _
      simp only [total, wanted, List.length_append, count, List.length_singleton, Bool.toNat_true]
      omega
    case served =>
      intro _ _
      refine ⟨rfl, state.trans same.state, kept ▸ bytes, fun wants => .inl ?_, fun _ => .inl armed⟩
      exact sending.trans (inflight wants)
    case failed =>
      intro unfit
      have inside : (proactor.sq ++ sends).length < proactor.sqEntries := fits
      refine absurd (Or.inr ?_) unfit
      rw [total, wanted, Bool.toNat_true]
      omega
  · rw [done]
    cases unsupported : conn.recvSupported proactor.bundle with
    | false =>
        have unwanted : conn.wantsRecv proactor.bundle = false := by
          simp [wantsRecv, unsupported]
        constructor
        case entries => rfl
        case bundle => rfl
        case pushed => simp [queued, total, unwanted]
        case served =>
          intro _ healthy
          rw [same.quiet] at awake
          rw [same.armed] at unarmed
          rw [same.ring] at ring
          simp [ConnectionState.healthy, awake, unarmed, unsupported, ← Option.not_isSome, ring] at healthy
        case failed =>
          intro unfit
          exact absurd (by simpa [Fits, total, unwanted] using sendFits) unfit
    | true =>
        have wanted : conn.wantsRecv proactor.bundle = true := by
          rw [wantsRecv_iff, ← same.quiet, ← same.armed, ← same.ring]
          refine ⟨awake, works.resolve_left ?_, unarmed, ring, unsupported⟩
          rw [← same.quiet, awake]
          simp
        have full : proactor.sqEntries ≤ (proactor.sq ++ sends).length := by
          refine unable.resolve_left ?_
          show conn₁.recvSupported proactor.bundle ≠ false
          simp [supported, unsupported]
        have unfit : ¬ conn.Fits proactor := by
          simp only [Fits, total, wanted, Bool.toNat_true, not_or]
          omega
        exact ⟨rfl, rfl, fun fits => absurd fits unfit, fun fits => absurd fits unfit,
          fun _ => ⟨full, e, rfl⟩⟩

theorem submitOps_spec (conn : ConnectionState) (proactor : Proactor) :
    conn.Submitted proactor (conn.submitOps proactor).1 (conn.submitOps proactor).2.1
      (conn.submitOps proactor).2.2 := by
  by_cases works : conn.quiet = true ∨ conn.egressWorks = true
  · by_cases room : conn.wantsSend = true → proactor.sq.length < proactor.sqEntries
    · obtain ⟨conn₁, sends, sent, count, same, bytes, inflight⟩ := trySubmitSend_served works room
      exact submitOps_rearm works sent count same bytes inflight room
    · rw [Classical.not_imp, Nat.not_lt] at room
      obtain ⟨wanted, full⟩ := room
      obtain ⟨conn₁, e, failed⟩ := trySubmitSend_fails (.inr ⟨wanted, full⟩)
      have unfit : ¬ conn.Fits proactor := by
        simp only [Fits, needs, wanted, Bool.toNat_true, not_or]
        omega
      simp only [submitOps, failed]
      exact ⟨rfl, rfl, fun fits => absurd fits unfit, fun fits => absurd fits unfit,
        fun _ => ⟨full, e, rfl⟩⟩
  · simp only [not_or, Bool.not_eq_true] at works
    obtain ⟨conn₁, e, failed⟩ :
        ∃ conn' e, conn.trySubmitSend proactor = (conn', proactor, .error e) :=
      trySubmitSend_fails (.inl works)
    have nothing : conn.needs proactor.bundle = 0 := by
      have refused := works.2
      simp only [egressWorks, Bool.or_eq_false_iff] at refused
      have unsendable : conn.wantsSend = false := by
        rw [← Bool.not_eq_true, wantsSend_iff]
        rintro ⟨-, -, bytes, accepted, -⟩
        simp [accepted, Except.isOk, Except.toBool] at refused
      simp [needs, unsendable, wantsRecv, works.2]
    simp only [submitOps, failed]
    refine ⟨rfl, rfl, fun _ => by simp [nothing], ?_, fun unfit => absurd (.inl nothing) unfit⟩
    intro _ healthy
    simp [ConnectionState.healthy, works.1, works.2] at healthy

/-- The connection after its submit phase; an error closes it. -/
def afterSubmit (conn : ConnectionState) (proactor : Proactor) : ConnectionState :=
  match conn.submitOps proactor with
  | (conn, _, .ok ()) => conn
  | (conn, _, .error _) => { conn with state := .closed }

theorem needs_closed {conn : ConnectionState} (closed : conn.state = .closed) (bundle : Bool) :
    conn.needs bundle = 0 := by
  have asleep : conn.quiet = true := by simp [ConnectionState.quiet, closed]
  simp [needs, wantsSend, wantsRecv, asleep]

/-- A healthy connection is served if and only if its submissions fit. -/
theorem afterSubmit_served_iff {conn : ConnectionState} {proactor : Proactor}
    (healthy : conn.healthy proactor.bundle = true) :
    conn.Served (conn.afterSubmit proactor) proactor.bundle ↔ conn.Fits proactor := by
  have submitted := conn.submitOps_spec proactor
  unfold afterSubmit
  generalize conn.submitOps proactor = outcome at submitted
  obtain ⟨conn₁, proactor₁, result⟩ := outcome
  by_cases fits : conn.Fits proactor
  · obtain ⟨ok, served⟩ := submitted.served fits healthy
    obtain rfl : result = .ok () := ok
    exact ⟨fun _ => fits, fun _ => served⟩
  · obtain ⟨-, e, error⟩ := submitted.failed fits
    obtain rfl : result = .error e := error
    refine ⟨fun served => absurd ?_ fits, fun fits' => absurd fits' fits⟩
    exact .inl (needs_closed served.state.symm _)

end ConnectionState

/-! ## The whole phase -/

/-- Submissions of the slots below `k`. -/
def Pool.demand (pool : Pool) (k : Nat) : Nat :=
  ((List.range k).map fun j => (pool.connAt j).elim 0 fun conn => conn.needs pool.proactor.bundle).sum

theorem Pool.demand_succ (pool : Pool) (k : Nat) :
    pool.demand (k + 1) =
      pool.demand k + (pool.connAt k).elim 0 fun conn => conn.needs pool.proactor.bundle := by
  simp [Pool.demand, List.range_succ]

/-- The submit phase followed by the entry into the kernel. -/
def Pool.submitted (pool : Pool) : Pool :=
  ((PumpCall.start pool).submitConnOps.enter Proactor.submit).1.pool

namespace PumpCall

theorem submitConnAt_none {call : PumpCall} {i : Nat} (vacant : call.pool.connAt i = none) :
    call.submitConnAt i = call := by
  rw [submitConnAt, vacant]

theorem submitConnAt_eq {call : PumpCall} {i : Nat} {conn : ConnectionState}
    (found : call.pool.connAt i = some conn) :
    (call.submitConnAt i).pool.proactor = (conn.submitOps call.pool.proactor).2.1 ∧
      (call.submitConnAt i).pool.conns =
        call.pool.conns.set i (some (conn.afterSubmit call.pool.proactor)) := by
  unfold submitConnAt ConnectionState.afterSubmit ConnectionState.submitOps
  rw [found]
  dsimp only
  cases sent : conn.trySubmitSend call.pool.proactor with
  | mk conn₁ rest =>
      obtain ⟨proactor₁, result⟩ := rest
      cases result with
      | error e => exact ⟨rfl, rfl⟩
      | ok done =>
          dsimp only
          cases armed : conn₁.tryRearmMultishot proactor₁ with
          | mk conn₂ rest =>
              obtain ⟨proactor₂, result⟩ := rest
              cases result <;> exact ⟨rfl, rfl⟩

end PumpCall

/-- The slots up to this one have room for their submissions, or this one has none. -/
def Pool.HasRoom (pool : Pool) (i : Nat) (conn : ConnectionState) : Prop :=
  conn.needs pool.proactor.bundle = 0 ∨
    pool.proactor.sq.length + pool.demand (i + 1) ≤ pool.proactor.sqEntries

/-- The submit phase after the slots below `k`. -/
structure PhaseAt (pool pool' : Pool) (k : Nat) : Prop where
  length : pool'.conns.length = pool.conns.length
  entries : pool'.proactor.sqEntries = pool.proactor.sqEntries
  bundle : pool'.proactor.bundle = pool.proactor.bundle
  later : ∀ j, k ≤ j → pool'.connAt j = pool.connAt j
  light : pool.demand k = 0 ∨ pool.proactor.sq.length + pool.demand k ≤ pool.proactor.sqEntries →
    pool'.proactor.sq.length = pool.proactor.sq.length + pool.demand k
  full : pool.demand k ≠ 0 → pool.proactor.sqEntries < pool.proactor.sq.length + pool.demand k →
    pool.proactor.sqEntries ≤ pool'.proactor.sq.length
  slots : ∀ j < k, ∀ conn, pool.connAt j = some conn →
    conn.healthy pool.proactor.bundle = true →
    ∃ conn', pool'.connAt j = some conn' ∧
      (conn.Served conn' pool.proactor.bundle ↔ pool.HasRoom j conn)

namespace PhaseAt

variable {pool : Pool}

theorem vacant {pool' : Pool} {k : Nat} (phase : PhaseAt pool pool' k)
    (none : pool.connAt k = none) : PhaseAt pool pool' (k + 1) := by
  have same : pool.demand (k + 1) = pool.demand k := by simp [Pool.demand_succ, none]
  constructor
  case length => exact phase.length
  case entries => exact phase.entries
  case bundle => exact phase.bundle
  case later => exact fun j after => phase.later j (Nat.le_of_succ_le after)
  case light => rw [same]; exact phase.light
  case full => rw [same]; exact phase.full
  case slots =>
    intro j before conn found
    rcases Nat.lt_succ_iff_lt_or_eq.mp before with earlier | rfl
    · exact phase.slots j earlier conn found
    · rw [none] at found
      simp at found

/-- A connection of the phase meets the queue that the slots before it have left. -/
theorem fits_iff {pool' : Pool} {k : Nat} {conn : ConnectionState} (phase : PhaseAt pool pool' k)
    (found : pool.connAt k = some conn) : conn.Fits pool'.proactor ↔ pool.HasRoom k conn := by
  have grows : pool.demand (k + 1) = pool.demand k + conn.needs pool.proactor.bundle := by
    simp [Pool.demand_succ, found]
  have light := phase.light
  have full := phase.full
  unfold ConnectionState.Fits Pool.HasRoom
  rw [phase.bundle, phase.entries, grows]
  omega

theorem occupied {call : PumpCall} {k : Nat} {conn : ConnectionState}
    (phase : PhaseAt pool call.pool k) (found : pool.connAt k = some conn) :
    PhaseAt pool (call.submitConnAt k).pool (k + 1) := by
  have here : call.pool.connAt k = some conn := (phase.later k (Nat.le_refl k)).trans found
  obtain ⟨proactor, conns⟩ := PumpCall.submitConnAt_eq here
  have slot (j : Nat) : (call.submitConnAt k).pool.connAt j =
      if j = k then some (conn.afterSubmit call.pool.proactor) else call.pool.connAt j := by
    rw [Pool.connAt, conns]
    exact Pool.connAt_set (Pool.connAt_lt here) _ j
  have submitted := conn.submitOps_spec call.pool.proactor
  rw [← proactor] at submitted
  have fits := phase.fits_iff found
  have grows : pool.demand (k + 1) = pool.demand k + conn.needs pool.proactor.bundle := by
    simp [Pool.demand_succ, found]
  have pushed := submitted.pushed
  have failed := submitted.failed
  have light := phase.light
  have full := phase.full
  rw [fits, phase.bundle] at pushed
  rw [fits, phase.entries] at failed
  constructor
  case length => simp [conns, phase.length]
  case entries => exact submitted.entries.trans phase.entries
  case bundle => exact submitted.bundle.trans phase.bundle
  case later =>
    intro j after
    rw [slot j, if_neg (by omega)]
    exact phase.later j (by omega)
  case light =>
    intro room
    have fitting : pool.HasRoom k conn := by
      unfold Pool.HasRoom
      omega
    rw [pushed fitting]
    omega
  case full =>
    intro wanted exceeds
    by_cases fitting : pool.HasRoom k conn
    · have nothing : conn.needs pool.proactor.bundle = 0 :=
        fitting.resolve_right (Nat.not_le.mpr exceeds)
      have counted := pushed fitting
      omega
    · exact (failed fitting).1
  case slots =>
    intro j before other found' healthy
    rw [slot j]
    split
    next at_k =>
      subst at_k
      rw [found, Option.some.injEq] at found'
      subst found'
      refine ⟨_, rfl, ?_⟩
      rw [← phase.bundle] at healthy ⊢
      rw [← fits]
      exact ConnectionState.afterSubmit_served_iff healthy
    next not_k => exact phase.slots j (by omega) other found' healthy

end PhaseAt

theorem PumpCall.submitConnOps_phase (pool : Pool) (k : Nat) :
    PhaseAt pool ((List.range k).foldl PumpCall.submitConnAt (PumpCall.start pool)).pool k := by
  induction k with
  | zero =>
      constructor
      case slots => simp
      all_goals simp [PumpCall.start, Pool.demand]
  | succ k ih =>
      rw [List.range_succ, List.foldl_append, List.foldl_cons, List.foldl_nil]
      cases found : pool.connAt k with
      | none =>
          rw [PumpCall.submitConnAt_none ((ih.later k (Nat.le_refl k)).trans found)]
          exact ih.vacant found
      | some conn => exact ih.occupied found

/-- Every healthy connection gets through the submit phase, with all its bytes, exactly if those
that have something to push find room for it. -/
theorem submitConnOps_serves_iff (pool : Pool) :
    (∀ i conn, pool.connAt i = some conn → conn.healthy pool.proactor.bundle = true →
        ∃ conn', pool.submitted.connAt i = some conn' ∧
          conn.Served conn' pool.proactor.bundle) ↔
      ∀ i conn, pool.connAt i = some conn → conn.healthy pool.proactor.bundle = true →
        pool.HasRoom i conn := by
  have phase := PumpCall.submitConnOps_phase pool pool.conns.length
  have entered (i : Nat) : pool.submitted.connAt i =
      ((List.range pool.conns.length).foldl PumpCall.submitConnAt
        (PumpCall.start pool)).pool.connAt i := by
    unfold Pool.submitted PumpCall.enter
    split <;> rfl
  constructor
  · intro serves i conn found healthy
    obtain ⟨conn', there, iff⟩ := phase.slots i (Pool.connAt_lt found) conn found healthy
    obtain ⟨conn'', there', served⟩ := serves i conn found healthy
    rw [entered, there, Option.some.injEq] at there'
    exact iff.mp (there' ▸ served)
  · intro room i conn found healthy
    obtain ⟨conn', there, iff⟩ := phase.slots i (Pool.connAt_lt found) conn found healthy
    exact ⟨conn', (entered i).trans there, iff.mpr (room i conn found healthy)⟩

end Backpressure

/-! ## One entry -/

attribute [local instance] Sample.rustls Ws.Sample.digest

/-- A queue of one entry holds the receive of the new connection; its upgrade request does not
fit, and the connection is closed. -/
theorem full_queue_closes_connection :
    let pool := (poolMachine.run (Sample.start 1 fun _ => none) (Sample.upgrade.take 5)).1.pool
    poolMachine.Reach Machine.always
        (poolMachine.run (Sample.start 1 fun _ => none) (Sample.upgrade.take 5)).1 ∧
      (pool.connAt 0).map (fun conn => (conn.healthy pool.proactor.bundle, conn.state)) =
        some (true, .wsHandshake) ∧
      (pool.submitted.connAt 0).map (fun conn => conn.state) = some .closed :=
  ⟨.run_always (.start (Sample.start_initial _ (by decide))) _, by decide +kernel⟩

end Talaris
