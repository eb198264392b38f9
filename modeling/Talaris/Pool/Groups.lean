import Talaris.Pool.Identity

/-!
# Buffer groups

Every connection has a buffer group of its own, and a group id goes back to the free list
when its connection leaves.  The module doc of the pool promises that this happens only when
no ring is registered under it.  That promise is broken by one double failure: a Connect
completion whose receive cannot be armed and whose ring then cannot be unregistered.
-/

namespace Talaris

open Talaris.Basis
open Talaris.Ws

section Groups

variable [Rustls]

/-- Group ids in use and free ones. -/
structure Groups (pool : Pool) : Prop where
  freeNodup : pool.freeBgids.Nodup
  freeSmall : ∀ g ∈ pool.freeBgids, g < pool.nextBgid
  liveSmall : ∀ i conn, pool.connAt i = some conn → conn.identity.bgid < pool.nextBgid
  liveUsed : ∀ i conn, pool.connAt i = some conn → conn.identity.bgid ∉ pool.freeBgids
  apart : ∀ i j conn conn', pool.connAt i = some conn → pool.connAt j = some conn' →
    conn.identity.bgid = conn'.identity.bgid → i = j

namespace Groups

variable {pool : Pool}

theorem update {i : Nat} {conn conn' : ConnectionState} (groups : Groups pool)
    (found : pool.connAt i = some conn) (endpoint : conn'.toEndpoint = conn.toEndpoint)
    (proactor : Proactor) (buf : List Completion) :
    Groups (pool.update i conn conn' proactor buf) := by
  have same : conn'.identity = conn.identity := congrArg Endpoint.identity endpoint
  have before (j : Nat) (now : ConnectionState)
      (here : (pool.update i conn conn' proactor buf).connAt j = some now) :
      ∃ was, pool.connAt j = some was ∧ now.identity = was.identity := by
    rcases Pool.connAt_update_cases found here with ⟨rfl, rfl⟩ | ⟨-, there⟩
    · exact ⟨conn, found, same⟩
    · exact ⟨now, there, rfl⟩
  constructor
  case freeNodup => exact groups.freeNodup
  case freeSmall => exact groups.freeSmall
  case liveSmall =>
    intro j now here
    obtain ⟨was, there, kept⟩ := before j now here
    rw [kept]
    exact groups.liveSmall j was there
  case liveUsed =>
    intro j now here
    obtain ⟨was, there, kept⟩ := before j now here
    rw [kept]
    exact groups.liveUsed j was there
  case apart =>
    intro j k now now' here here' equal
    obtain ⟨was, there, kept⟩ := before j now here
    obtain ⟨was', there', kept'⟩ := before k now' here'
    rw [kept, kept'] at equal
    exact groups.apart j k was was' there there' equal

theorem stocked {slot fresh : Bool} (groups : Groups pool) (stock : pool.Stock slot fresh) :
    Groups (pool.stocked slot fresh) := by
  have live (j : Nat) (conn : ConnectionState)
      (here : (pool.stocked slot fresh).connAt j = some conn) : pool.connAt j = some conn :=
    (pool.connAt_stocked slot fresh j).symm.trans here
  have apart := fun j k conn conn' here here' =>
    groups.apart j k conn conn' (live j conn here) (live k conn' here')
  cases fresh with
  | false =>
      exact ⟨groups.freeNodup, groups.freeSmall,
        fun j conn here => groups.liveSmall j conn (live j conn here),
        fun j conn here => groups.liveUsed j conn (live j conn here), apart⟩
  | true =>
      constructor
      case freeNodup => exact List.nodup_singleton _
      case freeSmall =>
        intro g member
        rw [List.mem_singleton.mp member]
        exact Nat.lt_succ_self _
      case liveSmall =>
        intro j conn here
        exact Nat.lt_succ_of_lt (groups.liveSmall j conn (live j conn here))
      case liveUsed =>
        intro j conn here member
        have small := groups.liveSmall j conn (live j conn here)
        rw [List.mem_singleton.mp member] at small
        exact Nat.lt_irrefl _ small
      case apart => exact apart

theorem occupied {conn : ConnectionState} {rest : List Nat} (groups : Groups pool)
    (inside : conn.identity.connId < pool.conns.length)
    (free : pool.freeBgids = conn.identity.bgid :: rest) (proactor : Proactor) :
    Groups (pool.occupied conn proactor) := by
  have nodup := groups.freeNodup
  rw [free, List.nodup_cons] at nodup
  have remaining : (pool.occupied conn proactor).freeBgids = rest := by simp [Pool.occupied, free]
  have first : conn.identity.bgid ∈ pool.freeBgids := by simp [free]
  have used (j : Nat) (now : ConnectionState) (here : pool.connAt j = some now) :
      now.identity.bgid ≠ conn.identity.bgid := by
    intro same
    exact groups.liveUsed j now here (same ▸ first)
  constructor
  case freeNodup => exact remaining ▸ nodup.2
  case freeSmall =>
    intro g member
    rw [remaining] at member
    exact groups.freeSmall g (by simp [free, member])
  case liveSmall =>
    intro j now here
    rcases Pool.connAt_occupied_cases inside here with ⟨-, rfl⟩ | ⟨-, there⟩
    · exact groups.freeSmall _ first
    · exact groups.liveSmall j now there
  case liveUsed =>
    intro j now here
    rw [remaining]
    rcases Pool.connAt_occupied_cases inside here with ⟨-, rfl⟩ | ⟨-, there⟩
    · exact nodup.1
    · intro member
      exact groups.liveUsed j now there (by simp [free, member])
  case apart =>
    intro j k now now' here here' equal
    rcases Pool.connAt_occupied_cases inside here with ⟨at_j, rfl⟩ | ⟨-, there⟩
    · rcases Pool.connAt_occupied_cases inside here' with ⟨at_k, -⟩ | ⟨-, there'⟩
      · exact at_j.trans at_k.symm
      · exact absurd equal.symm (used k now' there')
    · rcases Pool.connAt_occupied_cases inside here' with ⟨-, rfl⟩ | ⟨-, there'⟩
      · exact absurd equal (used j now there)
      · exact groups.apart j k now now' there there' equal

theorem vacated {i : Nat} {dead : ConnectionState} (groups : Groups pool)
    (found : pool.connAt i = some dead) : Groups (pool.vacated i dead) := by
  have left (j : Nat) (conn : ConnectionState)
      (here : (pool.vacated i dead).connAt j = some conn) :
      j ≠ i ∧ pool.connAt j = some conn :=
    Pool.connAt_vacated_cases found here
  have free (g : Nat) (member : g ∈ (pool.vacated i dead).freeBgids) :
      g = dead.identity.bgid ∨ g ∈ pool.freeBgids := by
    simp only [Pool.vacated] at member
    split at member
    next => exact List.mem_cons.mp member
    next => exact .inr member
  constructor
  case freeNodup =>
    simp only [Pool.vacated]
    split
    next => exact List.nodup_cons.mpr ⟨groups.liveUsed i dead found, groups.freeNodup⟩
    next => exact groups.freeNodup
  case freeSmall =>
    intro g member
    rcases free g member with rfl | old
    · exact groups.liveSmall i dead found
    · exact groups.freeSmall g old
  case liveSmall => exact fun j conn here => groups.liveSmall j conn (left j conn here).2
  case liveUsed =>
    intro j conn here member
    obtain ⟨other, was⟩ := left j conn here
    rcases free _ member with same | old
    · exact other (groups.apart j i conn dead was found same)
    · exact groups.liveUsed j conn was old
  case apart =>
    intro j k conn conn' here here'
    exact groups.apart j k conn conn' (left j conn here).2 (left k conn' here').2

end Groups

/-! ## The kernel's table of rings -/

/-- Every ring that a connection holds is in the kernel's table. -/
structure RingTable (pool : Pool) : Prop where
  unique : ∀ g m m', (g, m) ∈ pool.proactor.registered → (g, m') ∈ pool.proactor.registered → m = m'
  young : ∀ g m, (g, m) ∈ pool.proactor.registered → m < pool.proactor.nextRingMem
  standing : ∀ i conn ring, pool.connAt i = some conn → conn.bufRing = some ring →
    ring.unregistered = false ∧ ring.bgid = conn.identity.bgid ∧
      (ring.bgid, ring.ringMem) ∈ pool.proactor.registered
  apart : ∀ g g' m, (g, m) ∈ pool.proactor.registered → (g', m) ∈ pool.proactor.registered → g = g'

/-- No group id is free as long as a ring is registered under it. -/
structure Returned (pool : Pool) : Prop where
  used : ∀ g m, (g, m) ∈ pool.proactor.registered → g ∉ pool.freeBgids ∧ g < pool.nextBgid
  owned : ∀ g m i conn, (g, m) ∈ pool.proactor.registered → pool.connAt i = some conn →
    conn.identity.bgid = g → conn.bufRing ≠ none

theorem KernelMove.rings {pool : Pool} {label : PoolLabel} {proactor : Proactor}
    {buf : List Completion} (move : KernelMove pool label proactor buf) :
    proactor.registered = pool.proactor.registered ∧
      proactor.nextRingMem = pool.proactor.nextRingMem := by
  cases move with
  | same | spurious | drained | dropped => exact ⟨rfl, rfl⟩
  | posted post =>
      unfold Proactor.post
      split <;> exact ⟨rfl, rfl⟩
  | entered =>
      unfold Proactor.submit Proactor.syscall
      cases pool.proactor.faults pool.proactor.calls <;> exact ⟨rfl, rfl⟩

/-- Recycling and the like keep a ring's place in the table. -/
theorem ConnectionState.ring_of_tag {conn conn' : ConnectionState} {ring' : BufferRing}
    (same : conn'.bufRing.map BufferRing.tag = conn.bufRing.map BufferRing.tag)
    (present : conn'.bufRing = some ring') :
    ∃ ring, conn.bufRing = some ring ∧ ring'.ringMem = ring.ringMem ∧ ring'.bgid = ring.bgid ∧
      ring'.unregistered = ring.unregistered := by
  cases before : conn.bufRing with
  | none => simp [before, present] at same
  | some ring =>
      simp only [before, present, Option.map_some, Option.some.injEq, BufferRing.tag,
        Prod.mk.injEq] at same
      exact ⟨ring, rfl, same.1, same.2.1, same.2.2⟩

/-- What a step of a connection does to the table and to its own ring. -/
theorem ConnEffect.rings {proactor proactor' : Proactor} {conn conn' : ConnectionState}
    {consumed : List Completion} (effect : ConnEffect proactor conn consumed proactor' conn') :
    (proactor'.registered = proactor.registered ∧
        proactor.nextRingMem ≤ proactor'.nextRingMem ∧
        conn'.bufRing.map BufferRing.tag = conn.bufRing.map BufferRing.tag) ∨
      (conn.canRegister proactor = true ∧
        proactor'.registered =
          proactor.registered ++ [(conn.identity.bgid, proactor.nextRingMem)] ∧
        proactor'.nextRingMem = proactor.nextRingMem + 1 ∧
        ((conn.armingFails proactor = true ∧ proactor.faults (proactor.calls + 1) ≠ none ∧
            conn.state ≠ .closed ∧ conn'.bufRing = conn.bufRing ∧
            ∃ c, consumed = [c] ∧ c.userData.kind = some .connect ∧ 0 ≤ c.result) ∨
          ∃ ring, conn'.bufRing = some ring ∧
            ring.Registered proactor.nextRingMem conn.identity.bgid)) := by
  cases effect with
  | kept keeps => exact .inl ⟨rfl, Nat.le_refl _, keeps.ring⟩
  | sent _ _ _ _ same => exact .inl ⟨rfl, Nat.le_refl _, by rw [same]⟩
  | pushed pushes => exact .inl ⟨rfl, Nat.le_refl _, by rw [pushes.ring]⟩
  | refused _ _ _ _ _ grows keeps => exact .inl ⟨rfl, grows, keeps.ring⟩
  | stuck c known active accepted able unable fault keeps same =>
      exact .inr ⟨able, rfl, rfl, .inl ⟨unable, fault, active, same, c, rfl, known, accepted⟩⟩
  | connected c known active accepted able arms endpoint queue present registered =>
      exact .inr ⟨able, rfl, rfl, .inr ⟨_, present, registered⟩⟩

/-- Unregistering the ring of a connection that leaves its slot. -/
theorem unregisterDead_cases (proactor : Proactor) {dead : ConnectionState}
    (standing : ∀ ring, dead.bufRing = some ring →
      ring.unregistered = false ∧ ring.bgid = dead.identity.bgid) :
    (dead.bufRing = none ∧ Pool.unregisterDead proactor dead = (proactor, true)) ∨
      (dead.bufRing ≠ none ∧ Pool.unregisterDead proactor dead =
          ({ proactor with calls := proactor.calls + 1 }, false)) ∨
      (dead.bufRing ≠ none ∧ Pool.unregisterDead proactor dead =
          ({ proactor with
              calls := proactor.calls + 1
              registered := proactor.registered.filter fun entry => entry.1 ≠ dead.identity.bgid },
            true)) := by
  unfold Pool.unregisterDead
  cases present : dead.bufRing with
  | none => exact .inl ⟨rfl, rfl⟩
  | some ring =>
      obtain ⟨stands, group⟩ := standing ring present
      dsimp only
      rcases ring.unregister_cases proactor stands with ⟨e, -, failed⟩ | ⟨-, ring', done⟩
      · rw [failed]
        exact .inr (.inl ⟨by simp, rfl⟩)
      · rw [done, group]
        exact .inr (.inr ⟨by simp, rfl⟩)

namespace RingTable

variable {pool : Pool}

theorem ring_standing (table : RingTable pool) {i : Nat} {conn : ConnectionState}
    (found : pool.connAt i = some conn) (ring : BufferRing) (present : conn.bufRing = some ring) :
    ring.unregistered = false ∧ ring.bgid = conn.identity.bgid :=
  ⟨(table.standing i conn ring found present).1, (table.standing i conn ring found present).2.1⟩

theorem update {i : Nat} {conn conn' : ConnectionState} {proactor : Proactor}
    {consumed : List Completion} (table : RingTable pool) (found : pool.connAt i = some conn)
    (effect : ConnEffect pool.proactor conn consumed proactor conn') (buf : List Completion) :
    RingTable (pool.update i conn conn' proactor buf) := by
  have sameId : conn'.identity = conn.identity := congrArg Endpoint.identity effect.endpoint
  rcases effect.rings with ⟨registered, grows, kept⟩ | ⟨able, registered, next, ended⟩
  · constructor
    case unique => exact registered ▸ table.unique
    case apart => exact registered ▸ table.apart
    case young =>
      intro g m member
      exact Nat.lt_of_lt_of_le (table.young g m (registered ▸ member)) grows
    case standing =>
      intro j now ring here present
      show _ ∧ _ ∧ _ ∈ proactor.registered
      rw [registered]
      rcases Pool.connAt_update_cases found here with ⟨rfl, rfl⟩ | ⟨-, there⟩
      · obtain ⟨before, was, mem, group, stands⟩ := ConnectionState.ring_of_tag kept present
        rw [mem, group, stands, sameId]
        exact table.standing j conn before found was
      · exact table.standing j now ring there present
  · have free := Proactor.hasRing_of_canRegister able
    rw [Proactor.hasRing_false_iff] at free
    have member (g m : Nat) : (g, m) ∈ proactor.registered ↔
        (g, m) ∈ pool.proactor.registered ∨
          g = conn.identity.bgid ∧ m = pool.proactor.nextRingMem := by
      simp [registered]
    constructor
    case unique =>
      intro g m m' here here'
      rcases (member g m).mp here with old | ⟨rfl, rfl⟩
      · rcases (member g m').mp here' with old' | ⟨rfl, rfl⟩
        · exact table.unique g m m' old old'
        · exact absurd old (free m)
      · rcases (member _ m').mp here' with old' | ⟨-, rfl⟩
        · exact absurd old' (free m')
        · rfl
    case apart =>
      intro g g' m here here'
      rcases (member g m).mp here with old | ⟨rfl, rfl⟩
      · rcases (member g' m).mp here' with old' | ⟨-, rfl⟩
        · exact table.apart g g' m old old'
        · exact absurd (table.young g _ old) (Nat.lt_irrefl _)
      · rcases (member g' _).mp here' with old' | ⟨rfl, -⟩
        · exact absurd (table.young g' _ old') (Nat.lt_irrefl _)
        · rfl
    case young =>
      intro g m here
      show m < proactor.nextRingMem
      rw [next]
      rcases (member g m).mp here with old | ⟨-, rfl⟩
      · exact Nat.lt_succ_of_lt (table.young g m old)
      · exact Nat.lt_succ_self _
    case standing =>
      intro j now ring here present
      show _ ∧ _ ∧ (ring.bgid, ring.ringMem) ∈ proactor.registered
      rcases Pool.connAt_update_cases found here with ⟨rfl, rfl⟩ | ⟨-, there⟩
      · rcases ended with ⟨-, -, -, same, -⟩ | ⟨mine, now, ringed⟩
        · rw [same] at present
          have old := table.standing j conn ring found present
          rw [sameId]
          exact ⟨old.1, old.2.1, (member _ _).mpr (.inl old.2.2)⟩
        · rw [now, Option.some.injEq] at present
          subst present
          rw [sameId]
          exact ⟨ringed.standing, ringed.group, (member _ _).mpr (.inr ⟨ringed.group, ringed.mem⟩)⟩
      · have old := table.standing j now ring there present
        exact ⟨old.1, old.2.1, (member _ _).mpr (.inl old.2.2)⟩

theorem vacated {i : Nat} {dead : ConnectionState} (table : RingTable pool) (groups : Groups pool)
    (found : pool.connAt i = some dead) : RingTable (pool.vacated i dead) := by
  have shrinks : (Pool.unregisterDead pool.proactor dead).1.nextRingMem =
        pool.proactor.nextRingMem ∧
      ∀ g m, (g, m) ∈ (Pool.unregisterDead pool.proactor dead).1.registered →
        (g, m) ∈ pool.proactor.registered := by
    rcases unregisterDead_cases pool.proactor (table.ring_standing found) with ⟨-, done⟩ |
      ⟨-, done⟩ | ⟨-, done⟩
    · rw [done]
      exact ⟨rfl, fun _ _ member => member⟩
    · rw [done]
      exact ⟨rfl, fun _ _ member => member⟩
    · rw [done]
      exact ⟨rfl, fun _ _ member => List.mem_of_mem_filter member⟩
  constructor
  case unique =>
    intro g m m' here here'
    exact table.unique g m m' (shrinks.2 g m here) (shrinks.2 g m' here')
  case apart =>
    intro g g' m here here'
    exact table.apart g g' m (shrinks.2 g m here) (shrinks.2 g' m here')
  case young =>
    intro g m here
    show m < (Pool.unregisterDead pool.proactor dead).1.nextRingMem
    rw [shrinks.1]
    exact table.young g m (shrinks.2 g m here)
  case standing =>
    intro j now ring here present
    obtain ⟨other, there⟩ := Pool.connAt_vacated_cases found here
    obtain ⟨stands, group, registered⟩ := table.standing j now ring there present
    refine ⟨stands, group, ?_⟩
    show _ ∈ (Pool.unregisterDead pool.proactor dead).1.registered
    rcases unregisterDead_cases pool.proactor (table.ring_standing found) with ⟨-, done⟩ |
      ⟨-, done⟩ | ⟨-, done⟩
    · rw [done]
      exact registered
    · rw [done]
      exact registered
    · rw [done]
      refine List.mem_filter.mpr ⟨registered, ?_⟩
      have differs : ring.bgid ≠ dead.identity.bgid := by
        rw [group]
        exact fun same => other (groups.apart j i now dead there found same)
      simpa using differs

end RingTable

namespace Returned

variable {pool : Pool}

theorem update {i : Nat} {conn conn' : ConnectionState} {proactor : Proactor}
    {consumed : List Completion} (returned : Returned pool) (groups : Groups pool)
    (found : pool.connAt i = some conn)
    (effect : ConnEffect pool.proactor conn consumed proactor conn')
    (armed : ∀ c, consumed = [c] → c.userData.kind = some .connect → 0 ≤ c.result →
      conn.state ≠ .closed → conn.canRegister pool.proactor = true →
      conn.armingFails pool.proactor = true → pool.proactor.faults (pool.proactor.calls + 1) = none)
    (buf : List Completion) : Returned (pool.update i conn conn' proactor buf) := by
  have sameId : conn'.identity = conn.identity := congrArg Endpoint.identity effect.endpoint
  rcases effect.rings with ⟨registered, -, kept⟩ | ⟨able, registered, next, ended⟩
  · refine ⟨registered ▸ returned.used, ?_⟩
    intro g m j now member here same
    have old : (g, m) ∈ pool.proactor.registered := registered ▸ member
    rcases Pool.connAt_update_cases found here with ⟨rfl, rfl⟩ | ⟨-, there⟩
    · intro missing
      rw [missing] at kept
      simp only [Option.map_none, eq_comm (a := none), Option.map_eq_none_iff] at kept
      exact returned.owned g m j conn old found (sameId ▸ same) kept
    · exact returned.owned g m j now old there same
  · rcases ended with ⟨unable, fault, active, -, c, alone, known, accepted⟩ | ⟨ring, present, -⟩
    · exact absurd (armed c alone known accepted active able unable) fault
    · have member (g m : Nat) (here : (g, m) ∈ proactor.registered) :
          (g, m) ∈ pool.proactor.registered ∨ g = conn.identity.bgid := by
        rw [registered] at here
        rcases List.mem_append.mp here with old | new
        · exact .inl old
        · exact .inr (congrArg Prod.fst (List.mem_singleton.mp new))
      constructor
      case used =>
        intro g m here
        rcases member g m here with old | rfl
        · exact returned.used g m old
        · exact ⟨groups.liveUsed i conn found, groups.liveSmall i conn found⟩
      case owned =>
        intro g m j now here there same
        rcases Pool.connAt_update_cases found there with ⟨rfl, rfl⟩ | ⟨other, before⟩
        · rw [present]
          simp
        · rcases member g m here with old | rfl
          · exact returned.owned g m j now old before same
          · exact absurd (groups.apart j i now conn before found same) other

theorem stocked {slot fresh : Bool} (returned : Returned pool) :
    Returned (pool.stocked slot fresh) := by
  constructor
  case used =>
    intro g m member
    obtain ⟨unfree, small⟩ := returned.used g m member
    cases fresh with
    | false => exact ⟨unfree, small⟩
    | true =>
        refine ⟨?_, Nat.lt_succ_of_lt small⟩
        intro new
        rw [List.mem_singleton.mp new] at small
        exact Nat.lt_irrefl _ small
  case owned =>
    intro g m j conn member here
    rw [Pool.connAt_stocked] at here
    exact returned.owned g m j conn member here

theorem occupied {conn : ConnectionState} {rest : List Nat} {proactor : Proactor}
    (returned : Returned pool) (inside : conn.identity.connId < pool.conns.length)
    (free : pool.freeBgids = conn.identity.bgid :: rest)
    (registered : proactor.registered = pool.proactor.registered) :
    Returned (pool.occupied conn proactor) := by
  constructor
  case used =>
    intro g m member
    obtain ⟨unfree, small⟩ := returned.used g m (registered ▸ member)
    refine ⟨?_, small⟩
    intro still
    have remaining : g ∈ rest := by simpa [Pool.occupied, free] using still
    exact unfree (by simp [free, remaining])
  case owned =>
    intro g m j now member here same
    have old : (g, m) ∈ pool.proactor.registered := registered ▸ member
    rcases Pool.connAt_occupied_cases inside here with ⟨-, rfl⟩ | ⟨-, there⟩
    · exact absurd (by simp [free, same]) (returned.used g m old).1
    · exact returned.owned g m j now old there same

theorem vacated {i : Nat} {dead : ConnectionState} (returned : Returned pool)
    (table : RingTable pool) (found : pool.connAt i = some dead) :
    Returned (pool.vacated i dead) := by
  have unchanged (g m : Nat) (old : (g, m) ∈ pool.proactor.registered) (j : Nat)
      (conn : ConnectionState) (here : (pool.vacated i dead).connAt j = some conn)
      (same : conn.identity.bgid = g) : conn.bufRing ≠ none :=
    returned.owned g m j conn old (Pool.connAt_vacated_cases found here).2 same
  rcases unregisterDead_cases pool.proactor (table.ring_standing found) with ⟨missing, done⟩ |
    ⟨-, done⟩ | ⟨-, done⟩
  · -- without a ring there is none under its id either
    constructor
    case used =>
      intro g m member
      have old : (g, m) ∈ pool.proactor.registered := by
        simpa [Pool.vacated, done] using member
      obtain ⟨unfree, small⟩ := returned.used g m old
      refine ⟨?_, small⟩
      simp only [Pool.vacated, done, if_true, List.mem_cons, not_or]
      refine ⟨?_, unfree⟩
      intro mine
      exact returned.owned g m i dead old found mine.symm missing
    case owned =>
      intro g m j conn member
      exact unchanged g m (by simpa [Pool.vacated, done] using member) j conn
  · constructor
    case used =>
      intro g m member
      have old : (g, m) ∈ pool.proactor.registered := by
        simpa [Pool.vacated, done] using member
      simpa [Pool.vacated, done] using returned.used g m old
    case owned =>
      intro g m j conn member
      exact unchanged g m (by simpa [Pool.vacated, done] using member) j conn
  · have member (g m : Nat) (here : (g, m) ∈ (pool.vacated i dead).proactor.registered) :
        (g, m) ∈ pool.proactor.registered ∧ g ≠ dead.identity.bgid := by
      simpa [Pool.vacated, done] using here
    constructor
    case used =>
      intro g m here
      obtain ⟨old, other⟩ := member g m here
      obtain ⟨unfree, small⟩ := returned.used g m old
      refine ⟨?_, small⟩
      simp only [Pool.vacated, done, if_true, List.mem_cons, not_or]
      exact ⟨other, unfree⟩
    case owned =>
      intro g m j conn here
      exact unchanged g m (member g m here).1 j conn

end Returned

/-! ## Runs -/

/-- The tables that every run keeps in order. -/
structure Ledger (sys : System) : Prop where
  slots : Slots sys.pool sys.handles
  groups : Groups sys.pool
  table : RingTable sys.pool

/-- The step handles a Connect completion whose ring can be registered, but then neither armed
nor unregistered. -/
def System.losesRing (sys : System) : PoolLabel → Bool
  | .dispatch _ =>
      match sys.pool.completionsBuf with
      | [] => false
      | c :: _ =>
          match PumpCall.connForCompletion sys.pool.conns c with
          | none => false
          | some (_, conn) =>
              c.userData.kind = some .connect && 0 ≤ c.result && conn.state ≠ .closed &&
                conn.canRegister sys.pool.proactor && conn.armingFails sys.pool.proactor &&
                (sys.pool.proactor.faults (sys.pool.proactor.calls + 1)).isSome
  | _ => false

namespace System

variable [AcceptDigest] {sys sys' : System} {label : PoolLabel}
  {out : List (ConnHandle × SinkItem)}

theorem groups_change (groups : Groups sys.pool) (change : Change sys label sys' out) :
    Groups sys'.pool := by
  cases change with
  | kernel => exact { groups with }
  | step _ _ found _ _ _ _ stepped => exact groups.update found stepped.effect.endpoint _ _
  | refused _ _ stock => exact groups.stocked stock
  | seated _ _ _ _ _ _ stock _ _ _ free inside =>
      exact (groups.stocked stock).occupied inside free _
  | retired _ _ found => exact groups.vacated found

theorem table_change (groups : Groups sys.pool) (table : RingTable sys.pool)
    (change : Change sys label sys' out) : RingTable sys'.pool := by
  cases change with
  | kernel _ _ moved =>
      obtain ⟨registered, next⟩ := moved.rings
      exact ⟨registered ▸ table.unique, registered ▸ next ▸ table.young,
        registered ▸ table.standing, registered ▸ table.apart⟩
  | step _ _ found _ _ _ _ stepped => exact table.update found stepped.effect _
  | refused =>
      refine ⟨table.unique, table.young, ?_, table.apart⟩
      intro j conn ring here
      rw [Pool.connAt_stocked] at here
      exact table.standing j conn ring here
  | seated _ _ _ _ _ _ _ made _ _ _ inside =>
      refine ⟨table.unique, table.young, ?_, table.apart⟩
      intro j conn ring here present
      rcases Pool.connAt_occupied_cases inside here with ⟨-, rfl⟩ | ⟨-, there⟩
      · rw [made.ring] at present
        simp at present
      · rw [Pool.connAt_stocked] at there
        exact table.standing j conn ring there present
  | retired _ _ found => exact table.vacated groups found

theorem ledger_reach {admits : System → PoolLabel → Prop}
    (reached : poolMachine.Reach admits sys) : Ledger sys := by
  have start (sys : System) (initial : poolMachine.initial sys) : Ledger sys := by
    have first : poolMachine.Reach admits sys := .start initial
    refine ⟨slots_reach first, ?_, ?_⟩
    all_goals
      obtain ⟨_, _, _, _, rfl⟩ := initial_spec initial
      constructor <;> simp [Pool.connAt]
  have keeps (sys : System) (label : PoolLabel) (ledger : Ledger sys) (_ : admits sys label) :
      Ledger (poolMachine.step sys label).1 := by
    have change := System.change ledger.slots label
    exact ⟨slots_move ledger.slots (sys.step_move label), groups_change ledger.groups change,
      table_change ledger.groups ledger.table change⟩
  exact reached.invariant start keeps

theorem returned_change (ledger : Ledger sys) (returned : Returned sys.pool)
    (keeps : sys.losesRing label = false) (change : Change sys label sys' out) :
    Returned sys'.pool := by
  cases change with
  | kernel _ _ moved =>
      obtain ⟨registered, -⟩ := moved.rings
      exact ⟨registered ▸ returned.used, registered ▸ returned.owned⟩
  | step _ _ found split routed labelled _ stepped =>
      apply returned.update ledger.groups found stepped.effect
      intro c alone known accepted active able unable
      by_contra fault
      obtain ⟨pump, dispatches⟩ := labelled (by simp [alone])
      rw [alone] at split
      have lost : sys.losesRing label = true := by
        simp [System.losesRing, dispatches, split, routed c (by simp [alone]), known, accepted,
          active, able, unable, Option.isSome_iff_ne_none, fault]
      simp [lost] at keeps
  | refused => exact returned.stocked
  | seated _ _ _ _ _ _ _ _ _ _ free inside => exact returned.stocked.occupied inside free rfl
  | retired _ _ found => exact returned.vacated ledger.table found

theorem returned_reach
    (reached : poolMachine.Reach (fun sys label => sys.losesRing label = false) sys) :
    Returned sys.pool := by
  have start (sys : System) (initial : poolMachine.initial sys) : Ledger sys ∧ Returned sys.pool := by
    have first : poolMachine.Reach Machine.always sys := .start initial
    refine ⟨ledger_reach first, ?_⟩
    obtain ⟨_, _, _, _, rfl⟩ := initial_spec initial
    constructor <;> simp
  have keeps (sys : System) (label : PoolLabel) (inv : Ledger sys ∧ Returned sys.pool)
      (admitted : sys.losesRing label = false) :
      Ledger (poolMachine.step sys label).1 ∧ Returned (poolMachine.step sys label).1.pool := by
    obtain ⟨ledger, returned⟩ := inv
    have change := System.change ledger.slots label
    exact ⟨⟨slots_move ledger.slots (sys.step_move label), groups_change ledger.groups change,
      table_change ledger.groups ledger.table change⟩,
      returned_change ledger returned admitted change⟩
  exact (reached.invariant start keeps).2

/-- A slot that a connection of the last generation has left. -/
def Retired (sys : System) (i : Nat) : Prop :=
  sys.pool.connAt i = none ∧ ConnHandle.fromParts i connGenerationMask ∈ sys.handles

end System

/-- What a call that opened nothing may have done to the ids: a new one is free now. -/
structure Pool.KeepsIds (pool pool' : Pool) : Prop where
  occupied : ∀ i, pool'.connAt i = pool.connAt i
  slots : pool'.freeConnIds = pool.freeConnIds ∧ pool'.conns.length = pool.conns.length ∨
    pool.freeConnIds = [] ∧ pool'.freeConnIds = [pool.conns.length] ∧
      pool'.conns.length = pool.conns.length + 1
  groups : pool'.freeBgids = pool.freeBgids ∧ pool'.nextBgid = pool.nextBgid ∨
    pool.freeBgids = [] ∧ pool'.freeBgids = [pool.nextBgid] ∧ pool'.nextBgid = pool.nextBgid + 1

variable [AcceptDigest]

omit [AcceptDigest] in
/-- A slot is occupied, free once, or retired. -/
theorem System.slot_trichotomy {sys : System} (slots : Slots sys.pool sys.handles) {i : Nat}
    (inside : i < sys.pool.conns.length) :
    ((sys.pool.connAt i).isSome ∧ i ∉ sys.pool.freeConnIds ∧ ¬ sys.Retired i) ∨
      (sys.pool.connAt i = none ∧ sys.pool.freeConnIds.count i = 1 ∧ ¬ sys.Retired i) ∨
      (sys.pool.connAt i = none ∧ i ∉ sys.pool.freeConnIds ∧ sys.Retired i) := by
  cases here : sys.pool.connAt i with
  | some conn =>
      refine .inl ⟨rfl, ?_, ?_⟩
      · intro free
        rw [(slots.freeVacant i free).2] at here
        simp at here
      · intro retired
        rw [retired.1] at here
        simp at here
  | none =>
      by_cases free : i ∈ sys.pool.freeConnIds
      · refine .inr (.inl ⟨rfl, List.count_eq_one_of_mem slots.freeNodup free, ?_⟩)
        rintro ⟨-, last⟩
        obtain ⟨j, generation, current, same, known, older, unfree, -⟩ := slots.issued _ last
        have bounded := slots.bounded j current known
        have within : j < sys.pool.generations.length := (List.getElem?_eq_some_iff.mp known).1
        have below := slots.small
        have length := slots.length
        obtain ⟨rfl, rfl⟩ := ConnHandle.fromParts_injective (by omega) (by omega)
          (Nat.le_refl _) (Nat.le_trans older bounded) same
        exact unfree (Nat.le_antisymm older bounded) free
      · refine .inr (.inr ⟨rfl, free, here, ?_⟩)
        exact (slots.vacant i inside here).resolve_left free

/-- Slot and group ids are neither leaked nor duplicated, and a free group id has no ring, as
long as no Connect completion leaves its ring behind. -/
theorem ids_conserved {sys : System}
    (reached : poolMachine.Reach (fun sys label => sys.losesRing label = false) sys) :
    (∀ i < sys.pool.conns.length,
        ((sys.pool.connAt i).isSome ∧ i ∉ sys.pool.freeConnIds ∧ ¬ sys.Retired i) ∨
          (sys.pool.connAt i = none ∧ sys.pool.freeConnIds.count i = 1 ∧ ¬ sys.Retired i) ∨
          (sys.pool.connAt i = none ∧ i ∉ sys.pool.freeConnIds ∧ sys.Retired i)) ∧
      (∀ i j conn conn', sys.pool.connAt i = some conn → sys.pool.connAt j = some conn' →
        conn.identity.bgid = conn'.identity.bgid → i = j) ∧
      sys.pool.freeBgids.Nodup ∧
      (∀ i conn, sys.pool.connAt i = some conn → conn.identity.bgid ∉ sys.pool.freeBgids) ∧
      (∀ g ∈ sys.pool.freeBgids, sys.pool.proactor.hasRing g = false) ∧
      ∀ cfg addr opening e, (sys.pool.submitConnectTo cfg addr opening).2 = .error e →
        sys.pool.KeepsIds (sys.pool.submitConnectTo cfg addr opening).1 := by
  have ledger := System.ledger_reach reached
  refine ⟨fun i inside => System.slot_trichotomy ledger.slots inside, ledger.groups.apart,
    ledger.groups.freeNodup, ledger.groups.liveUsed, ?_, ?_⟩
  · intro g free
    rw [Proactor.hasRing_false_iff]
    intro ringMem registered
    exact ((System.returned_reach reached).used g ringMem registered).1 free
  · intro cfg addr opening e failed
    rcases sys.pool.submitConnectTo_cases cfg addr opening with ⟨slot, fresh, e, stock, refused⟩ |
      ⟨_, _, _, _, _, -, -, -, -, -, -, accepted⟩
    · rw [refused]
      constructor
      case occupied => exact sys.pool.connAt_stocked slot fresh
      case slots =>
        cases slot with
        | false => exact .inl ⟨rfl, rfl⟩
        | true =>
            have next := ledger.slots.next
            exact .inr ⟨(stock.slots rfl).1, by simp [Pool.stocked, next], by simp [Pool.stocked]⟩
      case groups =>
        cases fresh with
        | false => exact .inl ⟨rfl, rfl⟩
        | true => exact .inr ⟨(stock.bgids rfl).1, rfl, rfl⟩
    · rw [accepted] at failed
      simp at failed

end Groups

/-! ## A run with a lost ring -/

attribute [local instance] Sample.rustls Ws.Sample.digest

/-- The queue of one entry is full when the first connection wants to arm its receive. -/
def lostRing : List PoolLabel :=
  [.connect Sample.config Sample.addr Sample.opening false, .enter, .post ⟨0, 0, 0, []⟩,
    .connect Sample.config Sample.addr Sample.opening false, .drain, .dispatch .events,
    .remove Sample.handle]

theorem free_group_registered :
    let sys := (poolMachine.run (Sample.start 1 fun call => if call = 2 then some (.os 5) else none)
      lostRing).1
    poolMachine.Reach Machine.always sys ∧ 0 ∈ sys.pool.freeBgids ∧
      sys.pool.proactor.hasRing 0 = true :=
  ⟨.run_always (.start (Sample.start_initial _ (by decide))) lostRing, by decide +kernel,
    by decide +kernel⟩

/-- The same run with room in the queue. -/
theorem ids_conserved_removed :
    let sys := (poolMachine.run (Sample.start 256 fun _ => none) lostRing).1
    sys.pool.freeBgids = [0] ∧ ∀ g ∈ sys.pool.freeBgids, sys.pool.proactor.hasRing g = false :=
  ⟨by decide +kernel,
    (ids_conserved (.run (.start (Sample.start_initial _ (by decide))) lostRing
      (by decide +kernel))).2.2.2.2.1⟩

end Talaris
