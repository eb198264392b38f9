import Talaris.Connection.Laws

/-!
# The Connect completion

A Connect completion registers the receive ring of its connection, arms the receive and
starts the next handshake.  Each of these steps may fail; `onConnectCqe_cases` lists what
is left of the kernel's table of rings and of the connection then.
-/

namespace Talaris

open Talaris.Ws

namespace Proactor

/-- Some ring is registered under this group id. -/
def hasRing (proactor : Proactor) (bgid : Nat) : Bool :=
  proactor.registered.any fun entry => entry.1 = bgid

theorem hasRing_iff (proactor : Proactor) (bgid : Nat) :
    proactor.hasRing bgid = true ↔ ∃ ringMem, (bgid, ringMem) ∈ proactor.registered := by
  simp only [hasRing, List.any_eq_true, decide_eq_true_eq]
  constructor
  · rintro ⟨⟨group, ringMem⟩, member, same⟩
    exact ⟨ringMem, same ▸ member⟩
  · rintro ⟨ringMem, member⟩
    exact ⟨(bgid, ringMem), member, rfl⟩

theorem hasRing_false_iff (proactor : Proactor) (bgid : Nat) :
    proactor.hasRing bgid = false ↔ ∀ ringMem, (bgid, ringMem) ∉ proactor.registered := by
  rw [← Bool.not_eq_true, hasRing_iff, not_exists]

theorem registerBufRing_cases (proactor : Proactor) (ringMem bgid : Nat) :
    (∃ e, proactor.registerBufRing ringMem bgid =
        ({ proactor with calls := proactor.calls + 1 }, .error e)) ∨
      (proactor.faults proactor.calls = none ∧ proactor.hasRing bgid = false ∧
        proactor.registerBufRing ringMem bgid =
          ({ proactor with
              calls := proactor.calls + 1
              registered := proactor.registered ++ [(bgid, ringMem)] }, .ok ())) := by
  unfold registerBufRing syscall
  cases fault : proactor.faults proactor.calls with
  | some e => exact .inl ⟨_, rfl⟩
  | none =>
      dsimp only
      split
      next => exact .inl ⟨_, rfl⟩
      next free => exact .inr ⟨rfl, Bool.not_eq_true _ ▸ free, rfl⟩

theorem unregisterBufRing_cases (proactor : Proactor) (bgid : Nat) :
    (∃ e, (proactor.faults proactor.calls ≠ none ∨ proactor.hasRing bgid = false) ∧
        proactor.unregisterBufRing bgid =
          ({ proactor with calls := proactor.calls + 1 }, .error e)) ∨
      (proactor.hasRing bgid = true ∧
        proactor.unregisterBufRing bgid =
          ({ proactor with
              calls := proactor.calls + 1
              registered := proactor.registered.filter fun entry => entry.1 ≠ bgid }, .ok ())) := by
  unfold unregisterBufRing syscall
  cases fault : proactor.faults proactor.calls with
  | some e => exact .inl ⟨_, .inl (by simp), rfl⟩
  | none =>
      dsimp only
      split
      next used => exact .inr ⟨used, rfl⟩
      next free => exact .inl ⟨_, .inr (Bool.not_eq_true _ ▸ free), rfl⟩

end Proactor

/-- A ring as it is registered. -/
structure BufferRing.Registered (ring : BufferRing) (ringMem bgid : Nat) : Prop where
  mem : ring.ringMem = ringMem
  group : ring.bgid = bgid
  standing : ring.unregistered = false
  recycled : ring.recycled = []

/-- A ring of this shape can be registered under this group id now. -/
def Proactor.canRegister (proactor : Proactor) (bgid entries bufSize : Nat) : Bool :=
  ProactorConfig.isPowerOfTwo entries && bufSize ≠ 0 && (proactor.faults proactor.calls).isNone &&
    !proactor.hasRing bgid

theorem Proactor.hasRing_of_canRegister {proactor : Proactor} {bgid entries bufSize : Nat}
    (able : proactor.canRegister bgid entries bufSize = true) : proactor.hasRing bgid = false := by
  simp only [canRegister, Bool.and_eq_true, Bool.not_eq_true'] at able
  exact able.2

theorem BufferRing.new_cases (proactor : Proactor) (bgid entries bufSize : Nat) :
    (∃ nextRingMem calls e, proactor.nextRingMem ≤ nextRingMem ∧
        BufferRing.new proactor bgid entries bufSize =
          ({ proactor with nextRingMem, calls }, .error e)) ∨
      (proactor.canRegister bgid entries bufSize = true ∧
        ∃ ring : BufferRing, ring.Registered proactor.nextRingMem bgid ∧
          BufferRing.new proactor bgid entries bufSize =
            ({ proactor with
                nextRingMem := proactor.nextRingMem + 1
                calls := proactor.calls + 1
                registered := proactor.registered ++ [(bgid, proactor.nextRingMem)] },
              .ok ring)) := by
  unfold BufferRing.new
  split
  next => exact .inl ⟨_, _, _, Nat.le_refl _, rfl⟩
  next shaped =>
    split
    next => exact .inl ⟨_, _, _, Nat.le_refl _, rfl⟩
    next sized =>
      dsimp only
      rcases Proactor.registerBufRing_cases { proactor with nextRingMem := proactor.nextRingMem + 1 }
        proactor.nextRingMem bgid with ⟨e, refused⟩ | ⟨works, free, registered⟩
      · rw [refused]
        exact .inl ⟨_, _, _, Nat.le_succ _, rfl⟩
      · rw [registered]
        refine .inr ⟨?_, _, ⟨rfl, rfl, rfl, rfl⟩, rfl⟩
        have unused : proactor.hasRing bgid = false := free
        have succeeds : proactor.faults proactor.calls = none := works
        simp only [not_or, Bool.not_eq_true'] at shaped
        simp [Proactor.canRegister, unused, succeeds, sized, Bool.eq_true_of_not_eq_false shaped.2]

theorem BufferRing.unregister_cases (ring : BufferRing) (proactor : Proactor)
    (standing : ring.unregistered = false) :
    (∃ e, (proactor.faults proactor.calls ≠ none ∨ proactor.hasRing ring.bgid = false) ∧
        ring.unregister proactor =
          ({ proactor with calls := proactor.calls + 1 }, ring, .error e)) ∨
      (proactor.hasRing ring.bgid = true ∧ ∃ ring', ring.unregister proactor =
          ({ proactor with
              calls := proactor.calls + 1
              registered := proactor.registered.filter fun entry => entry.1 ≠ ring.bgid },
            ring', .ok ())) := by
  simp only [BufferRing.unregister, standing, Bool.false_eq_true, if_false]
  rcases proactor.unregisterBufRing_cases ring.bgid with ⟨e, why, refused⟩ | ⟨used, done⟩
  · rw [refused]
    exact .inl ⟨_, why, rfl⟩
  · rw [done]
    exact .inr ⟨used, _, rfl⟩

namespace ConnectionState

variable [Rustls]

/-- A receive of this connection cannot be armed. -/
def armingFails (conn : ConnectionState) (proactor : Proactor) : Bool :=
  conn.cfg.recvMode = .multishotBundle && !proactor.supportsRecvsendBundle ||
    proactor.sqEntries ≤ proactor.sq.length

theorem submitRecvForMode_spec (conn : ConnectionState) (proactor : Proactor) (bgid : Nat) :
    (conn.armingFails proactor = false ∧ conn.submitRecvForMode proactor bgid =
        ({ proactor with sq := proactor.sq ++ [conn.recvSqe bgid] }, .ok ())) ∨
      (conn.armingFails proactor = true ∧
        ∃ e, conn.submitRecvForMode proactor bgid = (proactor, .error (.proactor e))) := by
  unfold submitRecvForMode armingFails Proactor.push
  by_cases unable : conn.cfg.recvMode = .multishotBundle ∧ !proactor.supportsRecvsendBundle
  · rw [if_pos unable]
    exact .inr ⟨by simp_all, _, rfl⟩
  · rw [if_neg unable]
    by_cases room : proactor.sq.length < proactor.sqEntries
    · rw [if_pos room]
      refine .inl ⟨?_, rfl⟩
      simp only [not_and, Bool.not_eq_true'] at unable
      simp only [Bool.or_eq_false_iff, decide_eq_false_iff_not, Nat.not_le]
      refine ⟨?_, room⟩
      by_cases bundled : conn.cfg.recvMode = .multishotBundle
      · simp [bundled, unable bundled]
      · simp [bundled]
    · rw [if_neg room]
      exact .inr ⟨by simp only [Bool.or_eq_true, decide_eq_true_eq]; exact .inr (by omega), _, rfl⟩

/-- What a Connect completion that got through makes of a connection. -/
structure Connected (conn conn' : ConnectionState) (ringMem : Nat) : Prop where
  endpoint : conn'.toEndpoint = conn.toEndpoint
  queue : conn'.toSendQueue = conn.toSendQueue
  state : conn'.state = conn.connectedState
  tls : conn'.tls = conn.tls
  ring : ∃ ring : BufferRing, conn'.bufRing = some ring ∧ ring.Registered ringMem conn.identity.bgid
  armed : conn'.multishotArmed = true
  reader : conn'.toReader = conn.toReader ∨
    conn'.toReader = { conn.toReader with ws := conn.ws.beginHandshake.1 }
  pendingOut : conn'.tlsPendingOut = conn.tlsPendingOut

theorem Connected.beginWsHandshake {conn conn₁ : ConnectionState} {ringMem : Nat}
    (connected : conn.Connected conn₁ ringMem) (unread : conn₁.toReader = conn.toReader) :
    conn.Connected conn₁.beginWsHandshake.1 ringMem := by
  have reader : { conn₁.toReader with ws := conn₁.ws.beginHandshake.1 } =
      { conn.toReader with ws := conn.ws.beginHandshake.1 } := by
    rw [unread]
  unfold ConnectionState.beginWsHandshake
  split
  next ws e refused =>
    rw [refused] at reader
    exact { connected with reader := .inr reader }
  next ws begun =>
    rw [begun] at reader
    exact { connected with reader := .inr reader }

/-- The ring of the connection can be registered now. -/
def canRegister (conn : ConnectionState) (proactor : Proactor) : Bool :=
  proactor.canRegister conn.identity.bgid conn.cfg.bufRingEntries conn.cfg.bufRingSlotSize

/-- The three ends of a Connect completion: nothing is left registered, the ring stays
registered although the connection failed, or the connection stands. -/
theorem onConnectCqe_cases (conn : ConnectionState) (proactor : Proactor) (c : Completion) :
    (∃ nextRingMem calls e, proactor.nextRingMem ≤ nextRingMem ∧
        conn.onConnectCqe proactor c =
          (conn, { proactor with nextRingMem, calls }, .error e)) ∨
      (0 ≤ c.result ∧ conn.canRegister proactor = true ∧ conn.armingFails proactor = true ∧
        proactor.faults (proactor.calls + 1) ≠ none ∧ ∃ e, conn.onConnectCqe proactor c =
          (conn,
            { proactor with
              nextRingMem := proactor.nextRingMem + 1
              calls := proactor.calls + 2
              registered := proactor.registered ++ [(conn.identity.bgid, proactor.nextRingMem)] },
            .error e)) ∨
      (0 ≤ c.result ∧ conn.canRegister proactor = true ∧ conn.armingFails proactor = false ∧
        ∃ conn' result, conn.Connected conn' proactor.nextRingMem ∧ conn.onConnectCqe proactor c =
          (conn',
            { proactor with
              nextRingMem := proactor.nextRingMem + 1
              calls := proactor.calls + 1
              registered := proactor.registered ++ [(conn.identity.bgid, proactor.nextRingMem)]
              sq := proactor.sq ++ [conn.recvSqe conn.identity.bgid] }, result)) := by
  unfold onConnectCqe
  split
  next => exact .inl ⟨_, _, _, Nat.le_refl _, rfl⟩
  next n succeeded =>
    have accepted : 0 ≤ c.result := by
      unfold Completion.toResult at succeeded
      split at succeeded
      next nonneg => exact nonneg
      next => simp at succeeded
    rcases BufferRing.new_cases proactor conn.identity.bgid conn.cfg.bufRingEntries
      conn.cfg.bufRingSlotSize with ⟨mem, calls, e, grows, refused⟩ | ⟨able, ring, registered, made⟩
    · rw [refused]
      exact .inl ⟨mem, calls, _, grows, rfl⟩
    · have free := Proactor.hasRing_of_canRegister able
      rw [made]
      dsimp only
      rw [registered.group]
      rcases conn.submitRecvForMode_spec _ conn.identity.bgid with ⟨arms, armed⟩ | ⟨unable, e, refused⟩
      · rw [armed]
        refine .inr (.inr ⟨accepted, able, arms, ?_⟩)
        dsimp only
        generalize ready : { { conn with bufRing := some ring, multishotArmed := true
          }.recordRecvMultishotRearm with state := conn.connectedState } = conn₁
        have connected : conn.Connected conn₁ proactor.nextRingMem := by
          rw [← ready]
          exact ⟨rfl, rfl, rfl, rfl, ⟨ring, rfl, registered⟩, rfl, .inl rfl, rfl⟩
        have unread : conn₁.toReader = conn.toReader := by
          rw [← ready]
          rfl
        split
        next begins => exact ⟨conn₁.beginWsHandshake.1, conn₁.beginWsHandshake.2,
            connected.beginWsHandshake unread, by rw [← ready]; rfl⟩
        next => exact ⟨conn₁, .ok (), connected, by rw [← ready]; rfl⟩
      · rw [refused]
        dsimp only
        rcases ring.unregister_cases _ registered.standing with ⟨e, why, kept⟩ | ⟨used, ring', undone⟩
        · rw [kept]
          refine .inr (.inl ⟨accepted, able, unable, ?_, _, rfl⟩)
          rcases why with fault | unused
          · exact fault
          · rw [Proactor.hasRing_false_iff, registered.group] at unused
            exact absurd (List.mem_append_right _ (List.mem_singleton_self _)) (unused _)
        · rw [undone]
          have back : (proactor.registered ++ [(conn.identity.bgid, proactor.nextRingMem)]).filter
              (fun entry => entry.1 ≠ ring.bgid) = proactor.registered := by
            rw [Proactor.hasRing_false_iff] at free
            rw [List.filter_append, List.filter_eq_self.mpr]
            · simp [registered.group]
            · rintro ⟨group, ringMem⟩ member
              have other : group ≠ conn.identity.bgid := fun same => free ringMem (same ▸ member)
              simpa [registered.group] using other
          refine .inl ⟨proactor.nextRingMem + 1, proactor.calls + 2, .proactor e, Nat.le_succ _, ?_⟩
          rw [back]

end ConnectionState

end Talaris
