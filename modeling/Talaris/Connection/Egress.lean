import Talaris.Connection.Outbound
import Talaris.Connection.Secure

/-!
# Plaintext through a bounded queue

rustls queues ciphertext for `write_tls` up to a limit and accepts no more plaintext than
the limit leaves room for.  `egressPlaintext` empties the queue only after all of its
plaintext was accepted, so it encrypts what fits beside the bytes already queued and fails
on anything longer (`egressPlaintext_encrypts_iff`).  A submit phase hands over all pending
bytes of the client at once and meets the same limit.
-/

namespace Talaris

open Talaris.Ws

section Egress

variable [Rustls]

/-- What rustls documents of its writer after the handshake: it takes as many bytes as fit
between the ciphertext queued and the limit, and a record is no shorter than its plaintext.
`sealed` is the plaintext that the ciphertext so far carries. -/
structure Rustls.Bounded (limit : Nat) (established : Rustls.Session → Prop)
    (sealed : Rustls.Session → Bytes) : Prop where
  remains : ∀ session queued src, established session →
    established (Rustls.write session queued src).1
  accepted : ∀ session queued src, established session →
    (Rustls.write session queued src).2.1 = min src.length (limit - queued.length)
  recorded : ∀ session queued src, established session →
    (Rustls.write session queued src).2.1 ≤ (Rustls.write session queued src).2.2.length
  sealed : ∀ session queued src, established session →
    sealed (Rustls.write session queued src).1 =
      sealed session ++ src.take (Rustls.write session queued src).2.1

namespace TlsAdapter

/-- A call encrypts exactly `src`: it succeeds, leaves nothing in the queue, and hands over what
was queued and then the ciphertext of `src`. -/
structure Encrypts (sealed : Rustls.Session → Bytes) (tls : TlsAdapter) (src : Bytes) : Prop where
  done : (tls.egressPlaintext src).2.2 = .ok ()
  emptied : (tls.egressPlaintext src).1.conn.sendable = []
  carried : sealed (tls.egressPlaintext src).1.conn.session = sealed tls.conn.session ++ src
  handed : ∃ emitted,
    Rustls.Emits tls.conn.session emitted (tls.egressPlaintext src).1.conn.session ∧
      (tls.egressPlaintext src).2.1 = tls.conn.sendable ++ emitted

variable {limit : Nat} {established : Rustls.Session → Prop} {sealed : Rustls.Session → Bytes}

/-- What fits is written in one go. -/
theorem writeAll_fits (bounded : Rustls.Bounded limit established sealed) {tls : TlsAdapter}
    (ready : established tls.conn.session) {src : Bytes}
    (fits : src.length ≤ limit - tls.conn.sendable.length) :
    (tls.writeAll src).2 = .ok () ∧
      sealed (tls.writeAll src).1.conn.session = sealed tls.conn.session ++ src := by
  rw [writeAll]
  split
  next empty => exact ⟨rfl, by rw [empty, List.append_nil]⟩
  next nonempty =>
    have accepted := bounded.accepted _ tls.conn.sendable src ready
    have carried := bounded.sealed _ tls.conn.sendable src ready
    rw [Nat.min_eq_left fits] at accepted
    have positive := List.length_pos_of_ne_nil nonempty
    generalize Rustls.write tls.conn.session tls.conn.sendable src = answer at accepted carried
    obtain ⟨session, n, bytes⟩ := answer
    dsimp only at accepted carried ⊢
    subst accepted
    rw [dif_neg (by omega), List.drop_length, writeAll, dif_pos rfl]
    exact ⟨rfl, by rw [carried, List.take_length]⟩

/-- A queue at its limit accepts nothing. -/
theorem writeAll_full (bounded : Rustls.Bounded limit established sealed) {tls : TlsAdapter}
    (ready : established tls.conn.session) {src : Bytes} (some : src ≠ [])
    (full : limit ≤ tls.conn.sendable.length) :
    (tls.writeAll src).2 = .error (.io .writeZero) := by
  rw [writeAll, dif_neg some]
  have accepted := bounded.accepted _ tls.conn.sendable src ready
  rw [Nat.sub_eq_zero_of_le full, Nat.min_zero] at accepted
  generalize Rustls.write tls.conn.session tls.conn.sendable src = answer at accepted
  obtain ⟨session, n, bytes⟩ := answer
  dsimp only at accepted ⊢
  rw [dif_pos accepted]

/-- What does not fit fills the queue and then fails. -/
theorem writeAll_overflows (bounded : Rustls.Bounded limit established sealed) {tls : TlsAdapter}
    (ready : established tls.conn.session) {src : Bytes}
    (long : limit - tls.conn.sendable.length < src.length) :
    (tls.writeAll src).2 = .error (.io .writeZero) := by
  have nonempty : src ≠ [] := List.ne_nil_of_length_pos (Nat.zero_lt_of_lt long)
  by_cases full : limit ≤ tls.conn.sendable.length
  · exact writeAll_full bounded ready nonempty full
  · have accepted := bounded.accepted _ tls.conn.sendable src ready
    have recorded := bounded.recorded _ tls.conn.sendable src ready
    have ready' := bounded.remains _ tls.conn.sendable src ready
    rw [Nat.min_eq_right (Nat.le_of_lt long)] at accepted
    rw [writeAll, dif_neg nonempty]
    generalize Rustls.write tls.conn.session tls.conn.sendable src = answer at accepted recorded ready'
    obtain ⟨session, n, bytes⟩ := answer
    dsimp only at accepted recorded ready' ⊢
    rw [dif_neg (by omega)]
    -- the record of what was accepted has filled the queue
    apply writeAll_full bounded ready'
    · apply List.ne_nil_of_length_pos
      rw [List.length_drop]
      omega
    · rw [List.length_append]
      omega

theorem egressPlaintext_overflows (bounded : Rustls.Bounded limit established sealed)
    {tls : TlsAdapter} (ready : established tls.conn.session) {src : Bytes}
    (long : limit - tls.conn.sendable.length < src.length) :
    (tls.egressPlaintext src).2.2 = .error (.io .writeZero) := by
  have refused := writeAll_overflows bounded ready long
  unfold egressPlaintext
  cases written : tls.writeAll src with
  | mk tls' result =>
      rw [written] at refused
      simp only at refused
      rw [refused]

theorem egressPlaintext_encrypts_iff (bounded : Rustls.Bounded limit established sealed)
    {tls : TlsAdapter} (ready : established tls.conn.session) (src : Bytes) :
    tls.Encrypts sealed src ↔ src.length ≤ limit - tls.conn.sendable.length := by
  constructor
  · intro encrypts
    by_contra long
    have refused := egressPlaintext_overflows bounded ready (Nat.lt_of_not_le long)
    rw [encrypts.done] at refused
    cases refused
  · intro fits
    obtain ⟨accepted, carried⟩ := writeAll_fits bounded ready fits
    obtain ⟨emitted, emits, queue⟩ := tls.writeAll_serves src
    have called : tls.egressPlaintext src =
        ((tls.writeAll src).1.drainCiphertext.1, (tls.writeAll src).1.drainCiphertext.2, .ok ()) := by
      unfold egressPlaintext
      cases written : tls.writeAll src with
      | mk tls' result =>
          rw [written] at accepted
          simp only at accepted
          rw [accepted]
    constructor
    case done => rw [called]
    case emptied => rw [called]; rfl
    case carried => rw [called]; exact carried
    case handed => rw [called]; exact ⟨emitted, emits, queue⟩

/-- Writing nothing only empties the queue. -/
theorem egressPlaintext_nil (tls : TlsAdapter) :
    tls.egressPlaintext [] = (tls.drainCiphertext.1, tls.drainCiphertext.2, .ok ()) := by
  rw [egressPlaintext, writeAll, dif_pos rfl]

end TlsAdapter

namespace ConnectionState

/-- A submit phase moves all pending bytes of the client into the send buffer: behind what waited
there stands ciphertext of exactly these bytes. -/
def MovesPending (sealed : Rustls.Session → Bytes) (conn : ConnectionState) (tls : TlsAdapter)
    (proactor : Proactor) : Prop :=
  let conn' := (conn.trySubmitSend proactor).1
  conn'.ws.pendingTx = [] ∧
    ∃ tls' dst emitted, conn'.tls = some tls' ∧
      conn'.sendBuf.drop conn'.sendHead = conn.unsent ++ dst ∧
      sealed tls'.conn.session = sealed tls.conn.session ++ conn.ws.pendingTx ∧
      Rustls.Emits tls.conn.session emitted tls'.conn.session ∧
      dst = tls.conn.sendable ++ emitted

variable {limit : Nat} {established : Rustls.Session → Prop} {sealed : Rustls.Session → Bytes}

/-- The submit phase after staging. -/
theorem trySubmitSend_staged {conn : ConnectionState} (proactor : Proactor)
    (free : conn.sendInflight = false) (live : conn.quiet = false) :
    let conn' := (conn.trySubmitSend proactor).1
    conn'.ws = conn.stageSend.1.ws ∧ conn'.tls = conn.stageSend.1.tls ∧
      conn'.sendBuf = conn.stageSend.1.sendBuf ∧ conn'.sendHead = conn.stageSend.1.sendHead := by
  unfold trySubmitSend
  rw [if_neg (by simp [free, live])]
  cases conn.stageSend with
  | mk staged result =>
      cases result with
      | error e => exact ⟨rfl, rfl, rfl, rfl⟩
      | ok done =>
          dsimp only
          split
          next => exact ⟨rfl, rfl, rfl, rfl⟩
          next =>
            cases proactor.push staged.sendSqe with
            | mk proactor result => cases result <;> exact ⟨rfl, rfl, rfl, rfl⟩

/-- Staging on a TLS connection, by what the pending bytes were turned into. -/
theorem stageSend_tls {conn : ConnectionState} {tls : TlsAdapter} (secure : conn.tls = some tls) :
    ∃ conn₁ : ConnectionState, conn₁.ws = conn.ws ∧ conn₁.sendHead = 0 ∧ conn₁.sendBuf = conn.unsent ∧
      conn.stageSend = conn₁.stageTls tls := by
  obtain ⟨head, buf⟩ := conn.compactSend_spec
  obtain ⟨head', buf', merged, ws, tls'⟩ := conn.compactSend.mergeTlsPendingOut_spec
  refine ⟨conn.compactSend.mergeTlsPendingOut, ws, head'.trans head, ?_, ?_⟩
  · rw [buf', buf]
    rfl
  · have same : conn.compactSend.mergeTlsPendingOut.tls = some tls := tls'.trans secure
    unfold stageSend
    dsimp only
    rw [same]

theorem trySubmitSend_moves_iff (bounded : Rustls.Bounded limit established sealed)
    {conn : ConnectionState} {tls : TlsAdapter} (proactor : Proactor) (secure : conn.tls = some tls)
    (ready : established tls.conn.session) (free : conn.sendInflight = false)
    (live : conn.quiet = false) :
    conn.MovesPending sealed tls proactor ↔
      conn.ws.pendingTx.length ≤ limit - tls.conn.sendable.length := by
  obtain ⟨ws, tls', buf, head⟩ := trySubmitSend_staged proactor free live
  obtain ⟨conn₁, sameWs, first, pending, staged⟩ := stageSend_tls secure
  rw [staged] at ws tls' buf head
  have encrypts := TlsAdapter.egressPlaintext_encrypts_iff bounded ready conn.ws.pendingTx
  unfold MovesPending
  dsimp only
  rw [ws, tls', buf, head]
  unfold stageTls
  rw [sameWs]
  constructor
  · rintro ⟨taken, -⟩
    by_contra long
    have refused := TlsAdapter.egressPlaintext_overflows bounded ready (Nat.lt_of_not_le long)
    have some : conn.ws.pendingTx.isEmpty = false := by
      cases pendingTx : conn.ws.pendingTx with
      | nil => simp [pendingTx] at long
      | cons => rfl
    cases encrypted : tls.egressPlaintext conn.ws.pendingTx with
    | mk tls₁ outcome =>
        obtain ⟨dst, result⟩ := outcome
        rw [encrypted] at refused
        simp only at refused
        simp only [some, Bool.false_eq_true, if_false, encrypted, refused, sameWs] at taken
        simp [taken] at some
  · intro fits
    obtain ⟨tls₁, dst, first₁, nothing, carried, emitted, emits, handed⟩ :
        ∃ tls₁ dst, (if conn.ws.pendingTx.isEmpty then (tls, [], .ok ())
            else tls.egressPlaintext conn.ws.pendingTx) = (tls₁, dst, .ok ()) ∧
          (conn.ws.pendingTx = [] → dst = []) ∧
          sealed tls₁.conn.session = sealed tls.conn.session ++ conn.ws.pendingTx ∧
          tls.Serves dst tls₁ := by
      cases some : conn.ws.pendingTx.isEmpty with
      | true =>
          have none := List.isEmpty_iff.mp some
          exact ⟨tls, [], rfl, fun _ => rfl, by rw [none, List.append_nil], .nothing tls⟩
      | false =>
          obtain ⟨done, -, carried, -⟩ := encrypts.mpr fits
          have serves := tls.egressPlaintext_serves conn.ws.pendingTx
          refine ⟨(tls.egressPlaintext conn.ws.pendingTx).1,
            (tls.egressPlaintext conn.ws.pendingTx).2.1, ?_, fun none => ?_, carried, serves⟩
          · rw [← done]
            rfl
          · simp [none] at some
    rw [← sameWs] at nothing
    obtain ⟨head₂, buf₂, -, taken⟩ := conn₁.stageWs_spec dst nothing
    rw [first₁]
    simp only [TlsAdapter.egressPlaintext_nil]
    refine ⟨taken, tls₁.drainCiphertext.1, dst ++ tls₁.conn.sendable, emitted, rfl, ?_, carried,
      emits, handed⟩
    show (((conn₁.stageWs dst).sendBuf ++ tls₁.conn.sendable).drop (conn₁.stageWs dst).sendHead) = _
    rw [head₂, first, List.drop_zero, buf₂, pending, List.append_assoc]

/-- Whatever the plaintext, the adapter encrypts it exactly if it fits beside the queued bytes, and
so does a submit phase with what the client has pending. -/
theorem egress_complete_iff (bounded : Rustls.Bounded limit established sealed) :
    (∀ tls : TlsAdapter, established tls.conn.session → ∀ src,
      (tls.Encrypts sealed src ↔ src.length ≤ limit - tls.conn.sendable.length)) ∧
    ∀ (conn : ConnectionState) (tls : TlsAdapter) (proactor : Proactor), conn.tls = some tls →
      established tls.conn.session → conn.sendInflight = false → conn.quiet = false →
      (conn.MovesPending sealed tls proactor ↔
        conn.ws.pendingTx.length ≤ limit - tls.conn.sendable.length) :=
  ⟨fun _ ready src => TlsAdapter.egressPlaintext_encrypts_iff bounded ready src,
    fun _ _ proactor secure ready free live =>
      trySubmitSend_moves_iff bounded proactor secure ready free live⟩

end ConnectionState

end Egress

/-! ## The default limit -/

namespace Sample

/-- A writer with the default limit of 64 KiB.  A session is the plaintext it has sealed, and a
record is its header and the bytes. -/
@[reducible] def bounded : Rustls where
  Session := Bytes
  Config := Unit
  validServerName _ := true
  connect _ _ := .ok ([], [])
  wantsRead _ := true
  readTls session bytes := (session, .ok bytes.length)
  processNewPackets session := (session, [], [], .ok false)
  readerEnd _ := .ok ()
  write session queued bytes :=
    let n := min bytes.length (65536 - queued.length)
    (session ++ bytes.take n, n, if n = 0 then [] else 23 :: 3 :: 3 :: toBe 2 n ++ bytes.take n)
  isHandshaking _ := false
  alpnProtocol _ := none

attribute [local instance] bounded

theorem bounded_bounded : Rustls.Bounded 65536 (fun _ => True) fun session => session := by
  constructor
  case remains => intros; trivial
  case accepted => intros; rfl
  case recorded =>
    intro session queued src _
    dsimp only [Rustls.write]
    split
    next none => omega
    next =>
      simp only [List.length_cons, List.length_append, List.length_take]
      omega
  case sealed => intros; rfl

/-- An adapter with nothing in its buffers. -/
def idleAdapter : TlsAdapter := ⟨⟨[], [], []⟩, false⟩

end Sample

attribute [local instance] Sample.bounded

/-- One byte more than the limit is refused with `WriteZero`. -/
theorem longPlaintext_refused :
    Rustls.Bounded 65536 (fun _ => True) (fun session => session) ∧
      (Sample.idleAdapter.egressPlaintext (List.replicate 65537 0x41)).2.2 =
        .error (.io .writeZero) ∧
      ¬ Sample.idleAdapter.Encrypts (fun session => session) (List.replicate 65537 0x41) := by
  have long : 65536 - Sample.idleAdapter.conn.sendable.length <
      (List.replicate 65537 0x41 : Bytes).length := by
    rw [List.length_replicate]
    decide
  have refused := TlsAdapter.egressPlaintext_overflows Sample.bounded_bounded trivial long
  refine ⟨Sample.bounded_bounded, refused, fun encrypts => ?_⟩
  rw [encrypts.done] at refused
  cases refused

theorem egress_complete_iff_limit :
    Sample.idleAdapter.Encrypts (fun session => session) (List.replicate 65536 0x41) := by
  refine ((ConnectionState.egress_complete_iff Sample.bounded_bounded).1 Sample.idleAdapter trivial
    (List.replicate 65536 0x41)).mpr ?_
  rw [List.length_replicate]
  decide

end Talaris
