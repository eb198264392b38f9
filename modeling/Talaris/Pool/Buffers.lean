import Talaris.Pool.Groups

/-!
# Buffers taken from a ring

A receive names a buffer group, not a ring: the kernel takes the next buffer of whatever ring
is registered under the group when the bytes arrive.  A receive of a connection that was
removed stays armed, so giving its group to a new connection lets it take that connection's
buffers.  In a run in which no ring is registered over such a receive, every buffer taken is
reported to its owner.
-/

namespace Talaris

open Talaris.Basis
open Talaris.Ws

section Buffers

variable [Rustls]

/-- Receives that may still take buffers. -/
def Proactor.armed (proactor : Proactor) : List Sqe := proactor.sq ++ proactor.ops

/-- A receive of another connection is armed on this group. -/
def Proactor.armedFor (proactor : Proactor) (bgid token : Nat) : Bool :=
  proactor.armed.any fun
    | .recv _ group _ userData => group = bgid && userData.token ≠ token
    | .connect .. | .send .. => false

/-- Receives and taken buffers belong to the connection that holds the ring. -/
structure Owned (pool : Pool) : Prop where
  armed : ∀ fd g bundle userData, .recv fd g bundle userData ∈ pool.proactor.armed →
    ∀ i conn ring, pool.connAt i = some conn → conn.bufRing = some ring → ring.bgid = g →
      userData.token = conn.token
  taken : ∀ m c, (m, c) ∈ pool.proactor.taken →
    ∀ i conn ring, pool.connAt i = some conn → conn.bufRing = some ring → ring.ringMem = m →
      c.userData.token = conn.token
  young : ∀ m c, (m, c) ∈ pool.proactor.taken → m < pool.proactor.nextRingMem

omit [Rustls] in
theorem Proactor.ringOf_recv {proactor : Proactor} {sqe : Sqe} {c : Completion} {ringMem : Nat}
    (taken : proactor.ringOf sqe c = some ringMem) :
    ∃ fd g bundle userData, sqe = .recv fd g bundle userData ∧
      (g, ringMem) ∈ proactor.registered := by
  unfold ringOf at taken
  split at taken
  next fd g bundle userData _ _ =>
    obtain ⟨⟨group, mem⟩, found, rfl⟩ := Option.map_eq_some_iff.mp taken
    have same : group = g := by simpa using List.find?_some found
    exact ⟨fd, g, bundle, userData, rfl, same ▸ List.mem_of_find?_eq_some found⟩
  next => simp at taken

/-- What the kernel's moves do to armed receives and taken buffers. -/
theorem KernelMove.buffers {pool : Pool} {label : PoolLabel} {proactor : Proactor}
    {buf : List Completion} (moved : KernelMove pool label proactor buf) :
    (∀ sqe ∈ proactor.armed, sqe ∈ pool.proactor.armed) ∧
      ∀ entry ∈ proactor.taken, entry ∈ pool.proactor.taken ∨
        ∃ fd g bundle userData, .recv fd g bundle userData ∈ pool.proactor.armed ∧
          (g, entry.1) ∈ pool.proactor.registered ∧ entry.2.userData = userData := by
  cases moved with
  | same | spurious | drained | dropped =>
      exact ⟨fun _ member => member, fun _ member => .inl member⟩
  | posted post =>
      unfold Proactor.post
      cases found : pool.proactor.ops[post.op]? with
      | none => exact ⟨fun _ member => member, fun _ member => .inl member⟩
      | some sqe =>
          have running : sqe ∈ pool.proactor.armed :=
            List.mem_append_right _ (List.mem_of_getElem? found)
          constructor
          · intro other member
            simp only [Proactor.armed, List.mem_append] at member ⊢
            rcases member with queued | left
            · exact .inl queued
            · split at left
              next => exact .inr left
              next => exact .inr (List.mem_of_mem_eraseIdx left)
          · intro entry member
            rcases List.mem_append.mp member with old | new
            · exact .inl old
            · -- the buffer came from the ring registered under the group of the receive
              simp only [Option.mem_toList, Option.map_eq_some_iff] at new
              obtain ⟨ringMem, taken, rfl⟩ := new
              obtain ⟨fd, g, bundle, userData, rfl, registered⟩ := Proactor.ringOf_recv taken
              exact .inr ⟨fd, g, bundle, userData, running, registered, rfl⟩
  | entered =>
      unfold Proactor.submit Proactor.syscall
      cases pool.proactor.faults pool.proactor.calls with
      | some e => exact ⟨fun _ member => member, fun _ member => .inl member⟩
      | none =>
          refine ⟨?_, fun _ member => .inl member⟩
          intro sqe member
          simp only [Proactor.armed, List.nil_append, List.mem_append] at member ⊢
          exact member.symm

/-- What a step of a connection arms: nothing, a receive on the ring it holds, or a receive
on the ring it has just registered. -/
theorem ConnEffect.arms {proactor proactor' : Proactor} {conn conn' : ConnectionState}
    {consumed : List Completion} (effect : ConnEffect proactor conn consumed proactor' conn') :
    proactor'.taken = proactor.taken ∧ proactor.nextRingMem ≤ proactor'.nextRingMem ∧
      ((conn'.bufRing.map BufferRing.tag = conn.bufRing.map BufferRing.tag ∧
          ∀ fd g bundle userData, .recv fd g bundle userData ∈ proactor'.armed →
            .recv fd g bundle userData ∈ proactor.armed ∨
              (userData = UserData.new .recv conn.token ∧
                ∃ ring, conn.bufRing = some ring ∧ ring.bgid = g)) ∨
        (∃ c, consumed = [c] ∧ c.userData.kind = some .connect ∧ conn.state ≠ .closed ∧
          0 ≤ c.result ∧ conn.canRegister proactor = true ∧ conn.armingFails proactor = false ∧
          (∃ ring, conn'.bufRing = some ring ∧
            ring.Registered proactor.nextRingMem conn.identity.bgid) ∧
          ∀ fd g bundle userData, .recv fd g bundle userData ∈ proactor'.armed →
            .recv fd g bundle userData ∈ proactor.armed ∨
              (userData = UserData.new .recv conn.token ∧ g = conn.identity.bgid))) := by
  cases effect with
  | kept keeps =>
      exact ⟨rfl, Nat.le_refl _, .inl ⟨keeps.ring, fun _ _ _ _ member => .inl member⟩⟩
  | sent _ _ _ _ same =>
      exact ⟨rfl, Nat.le_refl _, .inl ⟨by rw [same], fun _ _ _ _ member => .inl member⟩⟩
  | @pushed _ sends recvs pushes =>
      refine ⟨rfl, Nat.le_refl _, .inl ⟨by rw [pushes.ring], ?_⟩⟩
      intro fd g bundle userData member
      have noSend : .recv fd g bundle userData ∉ sends := by
        cases busy : conn.sendInflight with
        | true => simp [(pushes.busy busy).1]
        | false =>
            rcases pushes.free busy with ⟨rfl, -⟩ | ⟨rfl, -⟩ <;> simp [ConnectionState.sendSqe]
      simp only [Proactor.armed, List.mem_append] at member ⊢
      rcases member with ((queued | sending) | arming) | running
      · exact .inl (.inl queued)
      · exact absurd sending noSend
      · right
        rcases pushes.armed with rfl | ⟨ring, present, rfl⟩
        · simp at arming
        · simp only [ConnectionState.recvSqe, List.mem_singleton, Sqe.recv.injEq] at arming
          exact ⟨arming.2.2.2, ring, present, arming.2.1.symm⟩
      · exact .inl (.inr running)
  | refused _ _ _ _ _ grows keeps =>
      exact ⟨rfl, grows, .inl ⟨keeps.ring, fun _ _ _ _ member => .inl member⟩⟩
  | stuck _ _ _ _ _ _ _ keeps =>
      exact ⟨rfl, Nat.le_succ _, .inl ⟨keeps.ring, fun _ _ _ _ member => .inl member⟩⟩
  | @connected _ ring c known active accepted able arms endpoint queue present registered =>
      refine ⟨rfl, Nat.le_succ _, .inr ⟨c, rfl, known, active, accepted, able, arms,
        ⟨ring, present, registered⟩, ?_⟩⟩
      intro fd g bundle userData member
      simp only [Proactor.armed, List.mem_append, List.mem_singleton] at member ⊢
      rcases member with (queued | arming) | running
      · exact .inl (.inl queued)
      · simp only [ConnectionState.recvSqe, Sqe.recv.injEq] at arming
        exact .inr ⟨arming.2.2.2, arming.2.1⟩
      · exact .inl (.inr running)

namespace Owned

variable {pool : Pool}

theorem kernel {label : PoolLabel} {proactor : Proactor} {buf : List Completion}
    (owned : Owned pool) (table : RingTable pool) (moved : KernelMove pool label proactor buf) :
    Owned { pool with proactor, completionsBuf := buf } := by
  obtain ⟨armed, taken⟩ := moved.buffers
  obtain ⟨-, next⟩ := moved.rings
  constructor
  case armed =>
    intro fd g bundle userData member
    exact owned.armed fd g bundle userData (armed _ member)
  case taken =>
    intro m c member i conn ring here present mine
    rcases taken (m, c) member with old | ⟨fd, g, bundle, userData, running, registered, carried⟩
    · exact owned.taken m c old i conn ring here present mine
    · obtain ⟨-, -, standing⟩ := table.standing i conn ring here present
      have group : ring.bgid = g := by
        rw [mine] at standing
        exact table.apart _ _ _ standing registered
      rw [carried]
      exact owned.armed fd g bundle userData running i conn ring here present group
  case young =>
    intro m c member
    show m < proactor.nextRingMem
    rw [next]
    rcases taken (m, c) member with old | ⟨_, g, _, _, -, registered, -⟩
    · exact owned.young m c old
    · exact table.young g m registered

theorem update {i : Nat} {conn conn' : ConnectionState} {proactor : Proactor}
    {consumed : List Completion} (owned : Owned pool) (groups : Groups pool)
    (table : RingTable pool) (small : conn.token < 2 ^ 56)
    (found : pool.connAt i = some conn)
    (effect : ConnEffect pool.proactor conn consumed proactor conn')
    (alone : ∀ c, consumed = [c] → c.userData.kind = some .connect → conn.state ≠ .closed →
      0 ≤ c.result → conn.canRegister pool.proactor = true →
      conn.armingFails pool.proactor = false →
      pool.proactor.armedFor conn.identity.bgid conn.token = false)
    (buf : List Completion) : Owned (pool.update i conn conn' proactor buf) := by
  have token : conn'.token = conn.token := by
    have endpoint := effect.endpoint
    simp only [ConnectionState.token]
    rw [endpoint]
  have mine : (UserData.new .recv conn.token).token = conn.token := UserData.token_new _ small
  obtain ⟨sameTaken, grows, ended⟩ := effect.arms
  have young (m : Nat) (c : Completion) (member : (m, c) ∈ proactor.taken) :
      m < pool.proactor.nextRingMem := owned.young m c (sameTaken ▸ member)
  -- a group that another connection's ring has is not the one of this connection
  have elsewhere {j : Nat} {now : ConnectionState} {ring : BufferRing} (other : j ≠ i)
      (there : pool.connAt j = some now) (present : now.bufRing = some ring) :
      ring.bgid ≠ conn.identity.bgid := by
    rw [(table.standing j now ring there present).2.1]
    exact fun same => other (groups.apart j i now conn there found same)
  rcases ended with ⟨kept, arming⟩ | ⟨c, only, known, active, accepted, able, arms, ⟨ring', now,
    registered⟩, arming⟩
  · constructor
    case armed =>
      intro fd g bundle userData member j now ring here present group
      rcases Pool.connAt_update_cases found here with ⟨rfl, rfl⟩ | ⟨other, there⟩
      · obtain ⟨before, was, -, sameGroup, -⟩ := ConnectionState.ring_of_tag kept present
        rw [token]
        rcases arming fd g bundle userData member with old | ⟨rfl, -⟩
        · exact owned.armed fd g bundle userData old j conn before found was
            (sameGroup.symm.trans group)
        · exact mine
      · rcases arming fd g bundle userData member with old | ⟨rfl, held, holds, same⟩
        · exact owned.armed fd g bundle userData old j now ring there present group
        · have atMine := (table.standing i conn held found holds).2.1
          exact absurd (group.trans (same.symm.trans atMine)) (elsewhere other there present)
    case taken =>
      intro m c member j now ring here present same
      have old : (m, c) ∈ pool.proactor.taken := sameTaken ▸ member
      rcases Pool.connAt_update_cases found here with ⟨rfl, rfl⟩ | ⟨-, there⟩
      · obtain ⟨before, was, sameMem, -, -⟩ := ConnectionState.ring_of_tag kept present
        rw [token]
        exact owned.taken m c old j conn before found was (sameMem.symm.trans same)
      · exact owned.taken m c old j now ring there present same
    case young => exact fun m c member => Nat.lt_of_lt_of_le (young m c member) grows
  · have free := alone c only known active accepted able arms
    constructor
    case armed =>
      intro fd g bundle userData member j now' ring here present group
      rcases Pool.connAt_update_cases found here with ⟨rfl, rfl⟩ | ⟨other, there⟩
      · rw [now, Option.some.injEq] at present
        subst present
        rw [registered.group] at group
        rw [token]
        rcases arming fd g bundle userData member with old | ⟨rfl, -⟩
        · by_contra foreign
          have occupiedGroup : pool.proactor.armedFor conn.identity.bgid conn.token = true := by
            simp only [Proactor.armedFor, List.any_eq_true]
            exact ⟨_, old, by simp [group, foreign]⟩
          rw [free] at occupiedGroup
          simp at occupiedGroup
        · exact mine
      · rcases arming fd g bundle userData member with old | ⟨-, same⟩
        · exact owned.armed fd g bundle userData old j now' ring there present group
        · exact absurd (group.trans same) (elsewhere other there present)
    case taken =>
      intro m c member j now' ring here present same
      rcases Pool.connAt_update_cases found here with ⟨rfl, rfl⟩ | ⟨-, there⟩
      · rw [now, Option.some.injEq] at present
        subst present
        -- the ring is younger than every buffer taken so far
        have older := young m c member
        rw [← same, registered.mem] at older
        exact absurd older (Nat.lt_irrefl _)
      · exact owned.taken m c (sameTaken ▸ member) j now' ring there present same
    case young => exact fun m c member => Nat.lt_of_lt_of_le (young m c member) grows

theorem stocked {slot fresh : Bool} (owned : Owned pool) : Owned (pool.stocked slot fresh) := by
  constructor
  case armed =>
    intro fd g bundle userData member i conn ring here
    rw [Pool.connAt_stocked] at here
    exact owned.armed fd g bundle userData member i conn ring here
  case taken =>
    intro m c member i conn ring here
    rw [Pool.connAt_stocked] at here
    exact owned.taken m c member i conn ring here
  case young => exact owned.young

/-- A connection enters without a ring. -/
theorem occupied {conn : ConnectionState} (owned : Owned pool)
    (inside : conn.identity.connId < pool.conns.length) (ringless : conn.bufRing = none)
    (fd : Nat) (addr : SocketAddr) (userData : UserData) :
    Owned (pool.occupied conn
      { pool.proactor with sq := pool.proactor.sq ++ [.connect fd addr userData] }) := by
  have before {j : Nat} {now : ConnectionState} {ring : BufferRing}
      (here : (pool.occupied conn
        { pool.proactor with sq := pool.proactor.sq ++ [.connect fd addr userData] }).connAt j =
          some now)
      (present : now.bufRing = some ring) : pool.connAt j = some now := by
    rcases Pool.connAt_occupied_cases inside here with ⟨-, rfl⟩ | ⟨-, there⟩
    · rw [ringless] at present
      simp at present
    · exact there
  constructor
  case armed =>
    intro fd' g bundle userData' member i now ring here present
    have old : .recv fd' g bundle userData' ∈ pool.proactor.armed := by
      simpa [Proactor.armed, Pool.occupied] using member
    exact owned.armed fd' g bundle userData' old i now ring (before here present) present
  case taken =>
    intro m c member i now ring here present
    exact owned.taken m c member i now ring (before here present) present
  case young => exact owned.young

theorem vacated {i : Nat} {dead : ConnectionState} (owned : Owned pool) (table : RingTable pool)
    (found : pool.connAt i = some dead) : Owned (pool.vacated i dead) := by
  have same : (Pool.unregisterDead pool.proactor dead).1.armed = pool.proactor.armed ∧
      (Pool.unregisterDead pool.proactor dead).1.taken = pool.proactor.taken ∧
      (Pool.unregisterDead pool.proactor dead).1.nextRingMem = pool.proactor.nextRingMem := by
    rcases unregisterDead_cases pool.proactor (table.ring_standing found) with ⟨-, done⟩ |
      ⟨-, done⟩ | ⟨-, done⟩
    all_goals
      rw [done]
      exact ⟨rfl, rfl, rfl⟩
  constructor
  case armed =>
    intro fd g bundle userData member j conn ring here
    exact owned.armed fd g bundle userData (same.1 ▸ member) j conn ring
      (Pool.connAt_vacated_cases found here).2
  case taken =>
    intro m c member j conn ring here
    exact owned.taken m c (same.2.1 ▸ member) j conn ring (Pool.connAt_vacated_cases found here).2
  case young =>
    intro m c member
    show m < (Pool.unregisterDead pool.proactor dead).1.nextRingMem
    rw [same.2.2]
    exact owned.young m c (same.2.1 ▸ member)

end Owned

/-! ## Runs -/

/-- The step registers a ring under a group on which a receive of another connection is
armed. -/
def System.reusesGroup (sys : System) : PoolLabel → Bool
  | .dispatch _ =>
      match sys.pool.completionsBuf with
      | [] => false
      | c :: _ =>
          match PumpCall.connForCompletion sys.pool.conns c with
          | none => false
          | some (_, conn) =>
              c.userData.kind = some .connect && 0 ≤ c.result && conn.state ≠ .closed &&
                conn.canRegister sys.pool.proactor && !conn.armingFails sys.pool.proactor &&
                sys.pool.proactor.armedFor conn.identity.bgid conn.token
  | _ => false

section Runs

variable [AcceptDigest] {sys sys' : System} {label : PoolLabel}
  {out : List (ConnHandle × SinkItem)}

theorem System.owned_change (ledger : Ledger sys) (owned : Owned sys.pool)
    (apart : sys.reusesGroup label = false) (change : Change sys label sys' out) :
    Owned sys'.pool := by
  cases change with
  | kernel _ _ moved => exact owned.kernel ledger.table moved
  | step _ _ found split routed labelled _ stepped =>
      apply owned.update ledger.groups ledger.table (ledger.slots.token_lt found) found
        stepped.effect
      intro c only known active accepted able arms
      by_contra shared
      obtain ⟨pump, dispatches⟩ := labelled (by simp [only])
      rw [only] at split
      have reused : sys.reusesGroup label = true := by
        simp [System.reusesGroup, dispatches, split, routed c (by simp [only]), known, accepted,
          active, able, arms, Bool.eq_true_of_not_eq_false shared]
      simp [reused] at apart
  | refused => exact owned.stocked
  | seated _ _ _ _ _ _ _ made _ _ _ inside =>
      exact owned.stocked.occupied inside made.ring _ _ _
  | retired _ _ found => exact owned.vacated ledger.table found

theorem System.owned_reach
    (reached : poolMachine.Reach (fun sys label => sys.reusesGroup label = false) sys) :
    Owned sys.pool := by
  induction reached with
  | start initial =>
      obtain ⟨_, _, _, _, rfl⟩ := System.initial_spec initial
      constructor <;> simp [Pool.connAt]
  | next label reached apart ih =>
      have ledger := System.ledger_reach reached
      exact System.owned_change ledger ih apart (System.change ledger.slots label)

/-- Every buffer taken out of the ring of a connection is reported to that connection. -/
theorem taken_buffers_reported
    (reached : poolMachine.Reach (fun sys label => sys.reusesGroup label = false) sys) :
    ∀ i conn ring, sys.pool.connAt i = some conn → conn.bufRing = some ring →
      ∀ c, (ring.ringMem, c) ∈ sys.pool.proactor.taken →
        PumpCall.connForCompletion sys.pool.conns c = some (i, conn) := by
  intro i conn ring found present c member
  have slots := System.slots_reach reached
  have token := (System.owned_reach reached).taken _ c member i conn ring found present rfl
  exact slots.routed found token

end Runs

end Buffers

/-! ## A receive that outlives its connection -/

attribute [local instance] Sample.rustls Ws.Sample.digest

/-- A connection is removed with its receive armed, the next one gets its group, and then the
old receive delivers. -/
def staleReceive : List PoolLabel :=
  [.connect Sample.config Sample.addr Sample.opening false, .enter, .post ⟨0, 0, 0, []⟩, .drain,
    .dispatch .events, .enter, .remove Sample.handle,
    .connect Sample.config Sample.addr Sample.opening false, .enter, .post ⟨1, 0, 0, []⟩, .drain,
    .dispatch .events, .post ⟨0, 2, 3, [1, 2]⟩]

theorem stale_receive_takes_buffer :
    let sys := (poolMachine.run (Sample.start 256 fun _ => none) staleReceive).1
    poolMachine.Reach Machine.always sys ∧
      ((sys.pool.connAt 0).bind fun conn => conn.bufRing.map BufferRing.ringMem) = some 1 ∧
      (sys.pool.proactor.taken.any fun entry =>
        entry.1 = 1 && (PumpCall.connForCompletion sys.pool.conns entry.2).isNone) = true :=
  ⟨.run_always (.start (Sample.start_initial _ (by decide))) staleReceive, by decide +kernel,
    by decide +kernel⟩

/-- The first connection's own receive. -/
theorem taken_buffers_reported_first :
    let sys := (poolMachine.run (Sample.start 256 fun _ => none)
      (staleReceive.take 6 ++ [.post ⟨0, 2, 3, [1, 2]⟩])).1
    sys.pool.proactor.taken.length = 1 ∧
      ∀ i conn ring, sys.pool.connAt i = some conn → conn.bufRing = some ring →
        ∀ c, (ring.ringMem, c) ∈ sys.pool.proactor.taken →
          PumpCall.connForCompletion sys.pool.conns c = some (i, conn) :=
  ⟨by decide +kernel, taken_buffers_reported (.run (.start (Sample.start_initial _ (by decide))) _
    (by decide +kernel))⟩

end Talaris
