import Talaris.Pool.Effects
import Talaris.Pool.Opening

/-!
# Identities

A handle names a slot and a generation of it.  The generation of a slot goes up whenever a
connection leaves it, and a slot whose generation cannot go up is never used again, so a
handle that was given out once is not given out for another connection.
-/

namespace Talaris

open Talaris.Basis
open Talaris.Ws

/-- The handle that an entry of the history gave out. -/
def HistoryEntry.handle? : HistoryEntry → Option ConnHandle
  | opened h _ _ => some h
  | received .. | delivered .. => none

section Identity

variable [Rustls]

/-- All handles given out, the oldest first. -/
def System.handles (sys : System) : List ConnHandle := sys.history.filterMap HistoryEntry.handle?

/-- The slot table, the generations and the handles given out. -/
structure Slots (pool : Pool) (handles : List ConnHandle) : Prop where
  length : pool.generations.length = pool.conns.length
  next : pool.nextConnId = pool.conns.length
  small : pool.conns.length ≤ connIdMask + 1
  bounded : ∀ (i generation : Nat), pool.generations[i]? = some generation →
    generation ≤ connGenerationMask
  freeNodup : pool.freeConnIds.Nodup
  freeVacant : ∀ i ∈ pool.freeConnIds, i < pool.conns.length ∧ pool.connAt i = none
  occupant : ∀ i conn, pool.connAt i = some conn →
    conn.identity.connId = i ∧ pool.generations[i]? = some conn.identity.generation
  seated : ∀ i conn, pool.connAt i = some conn → ConnHandle.fromConn conn ∈ handles
  vacant : ∀ i < pool.conns.length, pool.connAt i = none →
    i ∈ pool.freeConnIds ∨ ConnHandle.fromParts i connGenerationMask ∈ handles
  issued : ∀ h ∈ handles, ∃ i generation current,
    h = ConnHandle.fromParts i generation ∧ pool.generations[i]? = some current ∧
      generation ≤ current ∧
      (generation = current → i ∈ pool.freeConnIds → False) ∧
      (generation = current → pool.connAt i = none → current = connGenerationMask)
  distinct : handles.Nodup

namespace Slots

variable {pool : Pool} {handles : List ConnHandle}

theorem of_eq {pool' : Pool} (slots : Slots pool handles) (conns : pool'.conns = pool.conns)
    (generations : pool'.generations = pool.generations)
    (free : pool'.freeConnIds = pool.freeConnIds) (next : pool'.nextConnId = pool.nextConnId) :
    Slots pool' handles := by
  cases pool
  cases pool'
  simp only at conns generations free next
  subst conns generations free next
  exact { slots with }

theorem update {i : Nat} {conn conn' : ConnectionState} (slots : Slots pool handles)
    (found : pool.connAt i = some conn) (endpoint : conn'.toEndpoint = conn.toEndpoint)
    (proactor : Proactor) (buf : List Completion) :
    Slots (pool.update i conn conn' proactor buf) handles := by
  have same : conn'.identity = conn.identity := congrArg Endpoint.identity endpoint
  have length : (pool.conns.set i (some conn')).length = pool.conns.length := List.length_set
  have others (j : Nat) : (pool.update i conn conn' proactor buf).connAt j = none ↔
      pool.connAt j = none := by
    rw [Pool.connAt_update found]
    by_cases here : j = i
    · subst here
      simp [found]
    · simp [here]
  have occupied (j : Nat) (now : ConnectionState)
      (here : (pool.update i conn conn' proactor buf).connAt j = some now) :
      ∃ before, pool.connAt j = some before ∧ now.identity = before.identity := by
    rw [Pool.connAt_update found] at here
    split at here
    next at_i =>
      simp only [Option.some.injEq] at here
      subst here at_i
      exact ⟨conn, found, same⟩
    next => exact ⟨now, here, rfl⟩
  constructor
  case length => exact slots.length.trans length.symm
  case next => exact slots.next.trans length.symm
  case small => exact length ▸ slots.small
  case bounded => exact slots.bounded
  case freeNodup => exact slots.freeNodup
  case freeVacant =>
    intro j member
    have vacant := slots.freeVacant j member
    exact ⟨length ▸ vacant.1, (others j).mpr vacant.2⟩
  case occupant =>
    intro j now here
    obtain ⟨before, was, kept⟩ := occupied j now here
    rw [kept]
    exact slots.occupant j before was
  case seated =>
    intro j now here
    obtain ⟨before, was, kept⟩ := occupied j now here
    have handle : ConnHandle.fromConn now = ConnHandle.fromConn before := by
      simp only [ConnHandle.fromConn, ConnectionState.token, kept]
    rw [handle]
    exact slots.seated j before was
  case vacant =>
    intro j inside here
    exact slots.vacant j (length ▸ inside) ((others j).mp here)
  case issued =>
    intro h member
    obtain ⟨j, generation, current, shape, now, older, unfree, gone⟩ := slots.issued h member
    exact ⟨j, generation, current, shape, now, older, unfree,
      fun latest here => gone latest ((others j).mp here)⟩
  case distinct => exact slots.distinct

/-- Fresh ids. -/
theorem stocked {slot bgid : Bool} (slots : Slots pool handles) (stock : pool.Stock slot bgid) :
    Slots (pool.stocked slot bgid) handles := by
  cases slot with
  | false => exact slots.of_eq rfl rfl rfl rfl
  | true =>
      obtain ⟨empty, room⟩ := stock.slots rfl
      have others := pool.connAt_stocked true bgid
      have older (j generation : Nat) (known : pool.generations[j]? = some generation) :
          (pool.stocked true bgid).generations[j]? = some generation := by
        have inside : j < pool.generations.length := (List.getElem?_eq_some_iff.mp known).1
        simp only [Pool.stocked, if_true]
        rw [List.getElem?_append_left inside]
        exact known
      constructor
      case length => simp [Pool.stocked, slots.length]
      case next => simp [Pool.stocked, slots.next]
      case small =>
        have inside : pool.conns.length ≤ connIdMask := slots.next ▸ room
        simpa [Pool.stocked] using inside
      case bounded =>
        intro j generation known
        simp only [Pool.stocked, if_true] at known
        by_cases inside : j < pool.generations.length
        · rw [List.getElem?_append_left inside] at known
          exact slots.bounded j generation known
        · rw [List.getElem?_append_right (Nat.le_of_not_lt inside)] at known
          have zero := (List.mem_singleton.mp (List.mem_of_getElem? known))
          rw [zero]
          exact Nat.zero_le _
      case freeNodup => simp [Pool.stocked]
      case freeVacant =>
        intro j member
        have fresh : j = pool.conns.length := by simpa [Pool.stocked, slots.next] using member
        rw [others j, fresh]
        exact ⟨by simp [Pool.stocked], by simp [Pool.connAt]⟩
      case occupant =>
        intro j conn here
        rw [others j] at here
        obtain ⟨id, current⟩ := slots.occupant j conn here
        exact ⟨id, older j _ current⟩
      case seated =>
        intro j conn here
        rw [others j] at here
        exact slots.seated j conn here
      case vacant =>
        intro j inside here
        rw [others j] at here
        by_cases old : j < pool.conns.length
        · rcases slots.vacant j old here with free | exhausted
          · rw [empty] at free
            simp at free
          · exact .inr exhausted
        · have fresh : j = pool.conns.length := by
            simp only [Pool.stocked, if_true, List.length_append, List.length_singleton] at inside
            omega
          exact .inl (by simp [Pool.stocked, fresh, slots.next])
      case issued =>
        intro h member
        obtain ⟨j, generation, current, shape, known, notNewer, -, gone⟩ := slots.issued h member
        refine ⟨j, generation, current, shape, older j current known, notNewer, ?_, ?_⟩
        · intro _ free
          have fresh : j = pool.conns.length := by simpa [Pool.stocked, slots.next] using free
          have inside : j < pool.generations.length := (List.getElem?_eq_some_iff.mp known).1
          rw [slots.length] at inside
          omega
        · intro latest here
          exact gone latest ((others j).symm.trans here)
      case distinct => exact slots.distinct

/-- The generation of a slot that is free has not been given out. -/
theorem current_of_free {conn : ConnectionState} {rest : List Nat} (slots : Slots pool handles)
    (free : pool.freeConnIds = conn.identity.connId :: rest)
    (current : conn.identity.generation = pool.generations.getD conn.identity.connId 0) :
    pool.generations[conn.identity.connId]? = some conn.identity.generation := by
  have inside := (slots.freeVacant conn.identity.connId (by simp [free])).1
  rw [current, List.getD_eq_getElem?_getD,
    List.getElem?_eq_getElem (slots.length.symm ▸ inside)]
  rfl

theorem fresh {conn : ConnectionState} {rest : List Nat} (slots : Slots pool handles)
    (free : pool.freeConnIds = conn.identity.connId :: rest)
    (current : conn.identity.generation = pool.generations.getD conn.identity.connId 0) :
    ConnHandle.fromConn conn ∉ handles := by
  intro member
  have known := slots.current_of_free free current
  have first : conn.identity.connId ∈ pool.freeConnIds := by simp [free]
  obtain ⟨j, generation, latest, same, there, notNewer, unfree, -⟩ := slots.issued _ member
  have inside := (slots.freeVacant _ first).1
  have within : j < pool.generations.length := (List.getElem?_eq_some_iff.mp there).1
  have below := slots.small
  have lengths := slots.length
  obtain ⟨rfl, rfl⟩ := ConnHandle.fromParts_injective (by omega) (by omega)
    (slots.bounded _ _ known) (Nat.le_trans notNewer (slots.bounded _ _ there)) same
  rw [known, Option.some.injEq] at there
  exact unfree there first

theorem token_lt (slots : Slots pool handles) {i : Nat} {conn : ConnectionState}
    (found : pool.connAt i = some conn) : conn.token < 2 ^ 56 := by
  obtain ⟨rfl, known⟩ := slots.occupant i conn found
  have inside := Pool.connAt_lt found
  have below := slots.small
  exact encodeConnToken_lt (by omega) (slots.bounded _ _ known)

/-- A completion finds the connection that carries its token. -/
theorem routed (slots : Slots pool handles) {i : Nat} {conn : ConnectionState}
    (found : pool.connAt i = some conn) {c : Completion} (token : c.userData.token = conn.token) :
    PumpCall.connForCompletion pool.conns c = some (i, conn) := by
  obtain ⟨rfl, -⟩ := slots.occupant i conn found
  have small : conn.identity.connId ≤ connIdMask := by
    have inside := Pool.connAt_lt found
    have below := slots.small
    omega
  have slot : tokenConnId conn.token = conn.identity.connId := tokenConnId_encode small
  unfold PumpCall.connForCompletion
  simp only [token, slot]
  rw [show pool.conns[conn.identity.connId]?.join = some conn from found]
  simp

/-- Two slots never hold the same handle. -/
theorem handle_unique (slots : Slots pool handles)
    {i j : Nat} {conn conn' : ConnectionState} (found : pool.connAt i = some conn)
    (found' : pool.connAt j = some conn')
    (same : ConnHandle.fromConn conn = ConnHandle.fromConn conn') : i = j := by
  obtain ⟨rfl, known⟩ := slots.occupant i conn found
  obtain ⟨rfl, known'⟩ := slots.occupant j conn' found'
  have inside := Pool.connAt_lt found
  have inside' := Pool.connAt_lt found'
  have below := slots.small
  exact (ConnHandle.fromParts_injective (by omega) (by omega) (slots.bounded _ _ known)
    (slots.bounded _ _ known') same).1

/-- A connection in the first free slot. -/
theorem occupied {conn : ConnectionState} {rest : List Nat} (slots : Slots pool handles)
    (free : pool.freeConnIds = conn.identity.connId :: rest)
    (current : conn.identity.generation = pool.generations.getD conn.identity.connId 0)
    (proactor : Proactor) :
    Slots (pool.occupied conn proactor) (handles ++ [ConnHandle.fromConn conn]) := by
  have first : conn.identity.connId ∈ pool.freeConnIds := by simp [free]
  obtain ⟨inside, vacant⟩ := slots.freeVacant _ first
  have nodup := slots.freeNodup
  rw [free, List.nodup_cons] at nodup
  have known := slots.current_of_free free current
  have shape : ConnHandle.fromConn conn =
      ConnHandle.fromParts conn.identity.connId conn.identity.generation := rfl
  have small : conn.identity.connId ≤ connIdMask := by
    have below := slots.small
    omega
  have others := Pool.connAt_occupied inside proactor
  have length : (pool.occupied conn proactor).conns.length = pool.conns.length := by
    simp [Pool.occupied]
  have remaining : (pool.occupied conn proactor).freeConnIds = rest := by
    simp [Pool.occupied, free]
  have fresh := slots.fresh free current
  constructor
  case length => exact slots.length.trans length.symm
  case next => exact slots.next.trans length.symm
  case small => exact length ▸ slots.small
  case bounded => exact slots.bounded
  case freeNodup => exact remaining ▸ nodup.2
  case freeVacant =>
    intro j member
    rw [remaining] at member
    have still := slots.freeVacant j (by simp [free, member])
    have other : j ≠ conn.identity.connId := fun same => nodup.1 (same ▸ member)
    rw [others j, if_neg other]
    exact ⟨length ▸ still.1, still.2⟩
  case occupant =>
    intro j now here
    rw [others j] at here
    split at here
    next at_slot =>
      simp only [Option.some.injEq] at here
      subst here at_slot
      exact ⟨rfl, known⟩
    next => exact slots.occupant j now here
  case seated =>
    intro j now here
    rw [others j] at here
    split at here
    next =>
      simp only [Option.some.injEq] at here
      subst here
      simp
    next => exact List.mem_append_left _ (slots.seated j now here)
  case vacant =>
    intro j within here
    rw [others j] at here
    split at here
    next => simp at here
    next other =>
      rcases slots.vacant j (length ▸ within) here with was | exhausted
      · rw [free, List.mem_cons] at was
        exact .inl (remaining.symm ▸ was.resolve_left other)
      · exact .inr (List.mem_append_left _ exhausted)
  case issued =>
    intro h member
    rcases List.mem_append.mp member with old | new
    · obtain ⟨j, generation, latest, same, there, notNewer, unfree, gone⟩ := slots.issued h old
      refine ⟨j, generation, latest, same, there, notNewer, ?_, ?_⟩
      · intro isLatest member
        rw [remaining] at member
        exact unfree isLatest (by simp [free, member])
      · intro isLatest here
        rw [others j] at here
        split at here
        next => simp at here
        next => exact gone isLatest here
    · rw [List.mem_singleton] at new
      refine ⟨conn.identity.connId, conn.identity.generation, conn.identity.generation,
        new.trans shape, known, Nat.le_refl _, ?_, ?_⟩
      · intro _ member
        rw [remaining] at member
        exact nodup.1 member
      · intro _ here
        rw [others, if_pos rfl] at here
        simp at here
  case distinct =>
    rw [List.nodup_append]
    refine ⟨slots.distinct, List.nodup_singleton _, ?_⟩
    intro h old h' new same
    rw [List.mem_singleton] at new
    exact fresh (new ▸ same ▸ old)

/-- A connection leaves its slot. -/
theorem vacated {i : Nat} {dead : ConnectionState} (slots : Slots pool handles)
    (found : pool.connAt i = some dead) : Slots (pool.vacated i dead) handles := by
  have inside := Pool.connAt_lt found
  obtain ⟨rfl, known⟩ := slots.occupant i dead found
  have others := Pool.connAt_vacated found
  have length : (pool.vacated dead.identity.connId dead).conns.length = pool.conns.length := by
    simp [Pool.vacated]
  have unfree : dead.identity.connId ∉ pool.freeConnIds := by
    intro member
    rw [(slots.freeVacant _ member).2] at found
    simp at found
  have mine := slots.seated _ dead found
  have occupant (j : Nat) (conn : ConnectionState)
      (here : (pool.vacated dead.identity.connId dead).connAt j = some conn) :
      j ≠ dead.identity.connId ∧ pool.connAt j = some conn := by
    rw [others j] at here
    split at here
    next => simp at here
    next other => exact ⟨other, here⟩
  by_cases exhausted : connGenerationMask ≤ dead.identity.generation
  · -- the slot is retired for good
    have last : dead.identity.generation = connGenerationMask :=
      Nat.le_antisymm (slots.bounded _ _ known) exhausted
    have generations : (pool.vacated dead.identity.connId dead).generations = pool.generations := by
      simp [Pool.vacated, exhausted]
    have free : (pool.vacated dead.identity.connId dead).freeConnIds = pool.freeConnIds := by
      simp [Pool.vacated, exhausted]
    constructor
    case length => rw [generations, length, slots.length]
    case next => exact slots.next.trans length.symm
    case small => exact length ▸ slots.small
    case bounded => exact generations ▸ slots.bounded
    case freeNodup => exact free ▸ slots.freeNodup
    case freeVacant =>
      intro j member
      rw [free] at member
      have vacant := slots.freeVacant j member
      rw [others j, length]
      exact ⟨vacant.1, by split <;> simp [vacant.2]⟩
    case occupant =>
      intro j conn here
      rw [generations]
      exact slots.occupant j conn (occupant j conn here).2
    case seated => exact fun j conn here => slots.seated j conn (occupant j conn here).2
    case vacant =>
      intro j within here
      rw [others j] at here
      rw [free]
      split at here
      next same =>
        have handle : ConnHandle.fromConn dead = ConnHandle.fromParts j connGenerationMask := by
          rw [same, ← last]
          rfl
        exact .inr (handle ▸ mine)
      next => exact slots.vacant j (length ▸ within) here
    case issued =>
      intro h member
      obtain ⟨j, generation, latest, same, there, notNewer, notFree, gone⟩ := slots.issued h member
      refine ⟨j, generation, latest, same, generations ▸ there, notNewer, free ▸ notFree, ?_⟩
      intro isLatest here
      rw [others j] at here
      split at here
      next at_slot =>
        rw [at_slot, known, Option.some.injEq] at there
        exact there.symm.trans last
      next => exact gone isLatest here
    case distinct => exact slots.distinct
  · have within : dead.identity.connId < pool.generations.length := slots.length.symm ▸ inside
    have generations (j : Nat) : (pool.vacated dead.identity.connId dead).generations[j]? =
        if j = dead.identity.connId then some (dead.identity.generation + 1)
        else pool.generations[j]? := by
      simp only [Pool.vacated, exhausted, if_false]
      by_cases same : j = dead.identity.connId
      · rw [if_pos same, same, List.getElem?_set_self within]
      · rw [if_neg same, List.getElem?_set_ne (Ne.symm same)]
    have free : (pool.vacated dead.identity.connId dead).freeConnIds =
        dead.identity.connId :: pool.freeConnIds := by
      simp [Pool.vacated, exhausted]
    constructor
    case length => simp [Pool.vacated, exhausted, slots.length]
    case next => exact slots.next.trans length.symm
    case small => exact length ▸ slots.small
    case bounded =>
      intro j generation there
      rw [generations j] at there
      split at there
      next =>
        simp only [Option.some.injEq] at there
        omega
      next => exact slots.bounded j generation there
    case freeNodup => exact free ▸ List.nodup_cons.mpr ⟨unfree, slots.freeNodup⟩
    case freeVacant =>
      intro j member
      rw [free, List.mem_cons] at member
      rw [others j, length]
      rcases member with same | old
      · exact ⟨same ▸ inside, if_pos same⟩
      · have vacant := slots.freeVacant j old
        exact ⟨vacant.1, by split <;> simp [vacant.2]⟩
    case occupant =>
      intro j conn here
      obtain ⟨other, was⟩ := occupant j conn here
      rw [generations j, if_neg other]
      exact slots.occupant j conn was
    case seated => exact fun j conn here => slots.seated j conn (occupant j conn here).2
    case vacant =>
      intro j within here
      rw [others j] at here
      rw [free, List.mem_cons]
      split at here
      next same => exact .inl (.inl same)
      next =>
        rcases slots.vacant j (length ▸ within) here with was | retired
        · exact .inl (.inr was)
        · exact .inr retired
    case issued =>
      intro h member
      obtain ⟨j, generation, latest, same, there, notNewer, notFree, gone⟩ := slots.issued h member
      by_cases here : j = dead.identity.connId
      · -- every handle of the slot is now older than its generation
        rw [here, known, Option.some.injEq] at there
        refine ⟨j, generation, dead.identity.generation + 1, same, ?_, by omega, ?_, ?_⟩
        · rw [generations j, if_pos here]
        · intro isLatest
          omega
        · intro isLatest
          omega
      · refine ⟨j, generation, latest, same, ?_, notNewer, ?_, ?_⟩
        · rw [generations j, if_neg here]
          exact there
        · intro isLatest member
          rw [free, List.mem_cons] at member
          exact notFree isLatest (member.resolve_left here)
        · intro isLatest vacant
          rw [others j, if_neg here] at vacant
          exact gone isLatest vacant
    case distinct => exact slots.distinct

end Slots

/-! ## Runs -/

variable [AcceptDigest]

omit [AcceptDigest] in
theorem handles_recorded (history : List HistoryEntry) (conn : ConnectionState)
    (consumed : List Completion) (items : List SinkItem) :
    (history ++ recorded conn consumed items).filterMap HistoryEntry.handle? =
      history.filterMap HistoryEntry.handle? := by
  have none : (recorded conn consumed items).filterMap HistoryEntry.handle? = [] := by
    rw [List.filterMap_eq_nil_iff]
    intro entry member
    unfold recorded at member
    rcases List.mem_append.mp member with received | delivered
    · split at received
      next => simp at received
      next =>
        rw [List.mem_singleton.mp received]
        rfl
    · obtain ⟨item, -, rfl⟩ := List.mem_map.mp delivered
      rfl
  rw [List.filterMap_append, none, List.append_nil]

namespace System

variable {sys : System}

/-- Opening a connection either leaves every connection and handle as they are, or seats one
connection under a handle that is added. -/
theorem openConn_cases (slots : Slots sys.pool sys.handles) (cfg : ConnectionConfig)
    (addr : SocketAddr) (opening : Opening) (blocking : Bool) :
    (∃ slot fresh e, sys.pool.Stock slot fresh ∧
        sys.pool.submitConnectTo cfg addr opening = (sys.pool.stocked slot fresh, .error e) ∧
        sys.openConn cfg addr opening blocking =
          { sys with pool := sys.pool.stocked slot fresh }) ∨
      ∃ slot fresh conn rest bgids proactor, sys.pool.Stock slot fresh ∧
        ConnectionState.Made cfg conn.identity addr opening conn ∧ conn.state = .connecting ∧
        (sys.pool.stocked slot fresh).freeConnIds = conn.identity.connId :: rest ∧
        (sys.pool.stocked slot fresh).freeBgids = conn.identity.bgid :: bgids ∧
        conn.identity.generation =
          (sys.pool.stocked slot fresh).generations.getD conn.identity.connId 0 ∧
        proactor =
          { sys.pool.proactor with
            sq := sys.pool.proactor.sq ++
              [.connect conn.socket conn.addr (UserData.new .connect conn.token)] } ∧
        sys.pool.submitConnectTo cfg addr opening =
          ((sys.pool.stocked slot fresh).occupied conn proactor, .ok (ConnHandle.fromConn conn)) ∧
        sys.openConn cfg addr opening blocking =
          { sys with
            pool := (sys.pool.stocked slot fresh).occupied conn proactor
            driving := if blocking then some conn.identity.connId else none
            history := sys.history ++
              [.opened (ConnHandle.fromConn conn) conn.ws conn.tls.isNone] } := by
  rcases sys.pool.submitConnectTo_cases cfg addr opening with ⟨slot, fresh, e, stock, refused⟩ |
    ⟨slot, fresh, conn, rest, bgids, stock, made, connecting, free, freeBgid, generation, accepted⟩
  · refine .inl ⟨slot, fresh, e, stock, refused, ?_⟩
    simp only [openConn, refused]
  · refine .inr ⟨slot, fresh, conn, rest, bgids, _, stock, made, connecting, free, freeBgid,
      generation, rfl, accepted, ?_⟩
    have stocked := slots.stocked stock
    have inside := (stocked.freeVacant conn.identity.connId (by simp [free])).1
    have small : conn.identity.connId ≤ connIdMask := by
      have below := stocked.small
      omega
    have slotId : (ConnHandle.fromConn conn).asU32 = conn.identity.connId :=
      tokenConnId_encode small
    have seated (proactor : Proactor) :
        ((sys.pool.stocked slot fresh).occupied conn proactor).connAt conn.identity.connId =
          some conn := by
      rw [Pool.connAt_occupied inside, if_pos rfl]
    simp only [openConn, accepted, slotId, seated]
    rfl

/-- The slot table stays in order. -/
theorem slots_move {sys' : System} {label : PoolLabel} {out : List (ConnHandle × SinkItem)}
    (slots : Slots sys.pool sys.handles) (move : Move sys label sys' out) :
    Slots sys'.pool sys'.handles := by
  cases move with
  | kernel => exact slots.of_eq rfl rfl rfl rfl
  | step _ _ found _ _ _ _ stepped =>
      simp only [handles, handles_recorded]
      exact slots.update found stepped.effect.endpoint _ _
  | opened cfg addr opening blocking =>
      rcases openConn_cases slots cfg addr opening blocking with
        ⟨slot, fresh, e, stock, -, same⟩ |
        ⟨slot, fresh, conn, rest, bgids, proactor, stock, -, -, free, -, generation, -, -, same⟩
      · rw [same]
        exact slots.stocked stock
      · have occupied := (slots.stocked stock).occupied free generation proactor
        rw [same]
        simpa [handles, HistoryEntry.handle?] using occupied
  | retired _ _ found =>
      rw [Pool.retireSlot_eq found (slots.occupant _ _ found).2]
      exact slots.vacated found

theorem slots_reach {admits : System → PoolLabel → Prop}
    (reached : poolMachine.Reach admits sys) : Slots sys.pool sys.handles := by
  have start (sys : System) (initial : poolMachine.initial sys) : Slots sys.pool sys.handles := by
    obtain ⟨_, _, _, _, rfl⟩ := initial_spec initial
    constructor <;> simp [Pool.connAt, System.handles]
  have keeps (sys : System) (label : PoolLabel) (slots : Slots sys.pool sys.handles)
      (_ : admits sys label) :
      Slots (poolMachine.step sys label).1.pool (poolMachine.step sys label).1.handles :=
    slots_move slots (sys.step_move label)
  exact reached.invariant start keeps

/-- A step of the machine when the slot table is in order. -/
inductive Change (sys : System) :
    PoolLabel → System → List (ConnHandle × SinkItem) → Prop where
  | kernel {label : PoolLabel} {proactor : Proactor} {buf : List Completion}
      (firstErr : Option ConnectionError) (driving : Option Nat) :
      KernelMove sys.pool label proactor buf →
      Change sys label
        ⟨{ sys.pool with proactor, completionsBuf := buf }, firstErr, driving, sys.history⟩ []
  | step {label : PoolLabel} {i : Nat} {conn conn' : ConnectionState} {syncs : Bool}
      {consumed buf : List Completion} {proactor : Proactor} {items : List SinkItem}
      (firstErr : Option ConnectionError) (driving : Option Nat) :
      sys.pool.connAt i = some conn →
      sys.pool.completionsBuf = consumed ++ buf →
      (∀ c ∈ consumed, PumpCall.connForCompletion sys.pool.conns c = some (i, conn)) →
      (consumed ≠ [] → ∃ pump, label = .dispatch pump) →
      (syncs = true → sys.synced label = some i) →
      ConnStep sys.pool.proactor conn syncs consumed proactor conn' items →
      Change sys label
        ⟨sys.pool.update i conn conn' proactor buf, firstErr, driving,
          sys.history ++ recorded conn consumed items⟩
        (items.map fun item => (ConnHandle.fromConn conn, item))
  | refused {slot fresh : Bool} (label : PoolLabel) :
      sys.pool.completionsBuf = [] → sys.pool.Stock slot fresh →
      Change sys label { sys with pool := sys.pool.stocked slot fresh } []
  | seated {slot fresh : Bool} {conn : ConnectionState} {slots bgids : List Nat}
      (cfg : ConnectionConfig) (addr : SocketAddr) (opening : Opening) (label : PoolLabel)
      (driving : Option Nat) :
      sys.pool.completionsBuf = [] → sys.pool.Stock slot fresh →
      ConnectionState.Made cfg conn.identity addr opening conn → conn.state = .connecting →
      (sys.pool.stocked slot fresh).freeConnIds = conn.identity.connId :: slots →
      (sys.pool.stocked slot fresh).freeBgids = conn.identity.bgid :: bgids →
      conn.identity.connId < (sys.pool.stocked slot fresh).conns.length →
      sys.pool.connAt conn.identity.connId = none →
      ConnHandle.fromConn conn ∉ sys.handles →
      Change sys label
        { sys with
          pool := (sys.pool.stocked slot fresh).occupied conn
            { sys.pool.proactor with
              sq := sys.pool.proactor.sq ++
                [.connect conn.socket conn.addr (UserData.new .connect conn.token)] }
          driving
          history := sys.history ++ [.opened (ConnHandle.fromConn conn) conn.ws conn.tls.isNone] }
        []
  | retired {label : PoolLabel} {dead : ConnectionState} (driving : Option Nat) :
      sys.pool.completionsBuf = [] → sys.pool.connAt dead.identity.connId = some dead →
      sys.retiring label = some dead →
      Change sys label { sys with pool := sys.pool.vacated dead.identity.connId dead, driving } []

theorem change (slots : Slots sys.pool sys.handles) (label : PoolLabel) :
    Change sys label (poolMachine.step sys label).1 (poolMachine.step sys label).2 := by
  have move := sys.step_move label
  generalize poolMachine.step sys label = next at move ⊢
  obtain ⟨sys', out⟩ := next
  dsimp only at move ⊢
  cases move with
  | kernel firstErr driving moved => exact .kernel firstErr driving moved
  | step firstErr driving found split routed labelled following stepped =>
      exact .step firstErr driving found split routed labelled following stepped
  | opened cfg addr opening blocking idle =>
      have empty : sys.pool.completionsBuf = [] := by
        simp only [System.idle, Bool.and_eq_true, List.isEmpty_iff] at idle
        exact idle.1
      rcases openConn_cases slots cfg addr opening blocking with ⟨_, _, _, stock, -, same⟩ |
        ⟨_, _, conn, _, _, _, stock, made, connecting, free, freeBgid, generation, rfl, -, same⟩
      · rw [same]
        exact .refused _ empty stock
      · obtain ⟨inside, vacant⟩ := (slots.stocked stock).freeVacant conn.identity.connId
          (by simp [free])
        have fresh := (slots.stocked stock).fresh free generation
        rw [same]
        rw [Pool.connAt_stocked] at vacant
        exact .seated cfg addr opening _ _ empty stock made connecting free freeBgid inside vacant
          fresh
  | retired driving empty found retires =>
      obtain ⟨rfl, current⟩ := slots.occupant _ _ found
      rw [Pool.retireSlot_eq found current]
      exact .retired driving empty found retires

/-- Who sits in a slot after a step sat there before or was seated under a new handle. -/
theorem seated_move {sys' : System} {label : PoolLabel} {out : List (ConnHandle × SinkItem)}
    (slots : Slots sys.pool sys.handles) (move : Move sys label sys' out) {i : Nat}
    {conn' : ConnectionState} (here : sys'.pool.connAt i = some conn') :
    (∃ conn, sys.pool.connAt i = some conn ∧ conn.identity = conn'.identity) ∨
      sys'.handles = sys.handles ++ [ConnHandle.fromConn conn'] := by
  cases move with
  | kernel => exact .inl ⟨conn', here, rfl⟩
  | step _ _ found _ _ _ _ stepped =>
      rw [Pool.connAt_update found] at here
      split at here
      next at_slot =>
        simp only [Option.some.injEq] at here
        subst here at_slot
        exact .inl ⟨_, found, (congrArg Endpoint.identity stepped.effect.endpoint).symm⟩
      next => exact .inl ⟨conn', here, rfl⟩
  | opened cfg addr opening blocking =>
      rcases openConn_cases slots cfg addr opening blocking with
        ⟨slot, fresh, e, stock, -, same⟩ |
        ⟨slot, fresh, conn, rest, bgids, proactor, stock, -, -, free, -, -, -, -, same⟩
      · rw [same, Pool.connAt_stocked] at here
        exact .inl ⟨conn', here, rfl⟩
      · have inside := ((slots.stocked stock).freeVacant conn.identity.connId (by simp [free])).1
        rw [same, Pool.connAt_occupied inside] at here
        split at here
        next =>
          simp only [Option.some.injEq] at here
          subst here
          rw [same]
          simp [handles, HistoryEntry.handle?]
        next =>
          rw [Pool.connAt_stocked] at here
          exact .inl ⟨conn', here, rfl⟩
  | retired _ _ found =>
      rw [Pool.retireSlot_eq found (slots.occupant _ _ found).2, Pool.connAt_vacated found] at here
      split at here
      next => simp at here
      next => exact .inl ⟨conn', here, rfl⟩

omit [AcceptDigest] in
/-- With the table in order a handle finds the connection that carries it. -/
theorem lookup_iff (slots : Slots sys.pool sys.handles) {h : ConnHandle}
    {conn : ConnectionState} :
    sys.pool.lookup h = some conn ↔
      ∃ i, sys.pool.connAt i = some conn ∧ ConnHandle.fromConn conn = h := by
  simp only [Pool.lookup, Option.filter_eq_some_iff, decide_eq_true_eq]
  constructor
  · rintro ⟨found, same⟩
    exact ⟨_, found, congrArg ConnHandle.mk same⟩
  · rintro ⟨i, found, rfl⟩
    have small : i ≤ connIdMask := by
      have inside := Pool.connAt_lt found
      have below := slots.small
      omega
    obtain ⟨rfl, -⟩ := slots.occupant i conn found
    refine ⟨?_, rfl⟩
    have slotId : (ConnHandle.fromConn conn).asU32 = conn.identity.connId := tokenConnId_encode small
    rw [slotId]
    exact found

theorem handles_move {sys' : System} {label : PoolLabel} {out : List (ConnHandle × SinkItem)}
    (slots : Slots sys.pool sys.handles) (move : Move sys label sys' out) :
    sys.handles <+: sys'.handles := by
  cases move with
  | kernel | retired => exact List.prefix_rfl
  | step =>
      simp only [handles, handles_recorded]
      exact List.prefix_rfl
  | opened cfg addr opening blocking =>
      rcases openConn_cases slots cfg addr opening blocking with ⟨_, _, _, _, -, same⟩ |
        ⟨_, _, conn, _, _, _, _, -, -, -, -, -, -, -, same⟩
      · rw [same]
        exact List.prefix_rfl
      · rw [same]
        simp [handles, HistoryEntry.handle?]

/-- A handle without a connection stays without one. -/
theorem lookup_none_move {sys' : System} {label : PoolLabel} {out : List (ConnHandle × SinkItem)}
    (slots : Slots sys.pool sys.handles) (move : Move sys label sys' out) {h : ConnHandle}
    (issued : h ∈ sys.handles) (gone : sys.pool.lookup h = none) :
    sys'.pool.lookup h = none := by
  have slots' := slots_move slots move
  by_contra back
  obtain ⟨conn', found⟩ := Option.ne_none_iff_exists'.mp back
  obtain ⟨i, here, same⟩ := (lookup_iff slots').mp found
  rcases seated_move slots move here with ⟨conn, before, kept⟩ | new
  · have carried : ConnHandle.fromConn conn = h := by
      rw [← same]
      simp only [ConnHandle.fromConn, ConnectionState.token, kept]
    have still := (lookup_iff slots).mpr ⟨i, before, carried⟩
    rw [gone] at still
    simp at still
  · -- a handle given out now was never given out before
    have distinct := slots'.distinct
    rw [new, same, List.nodup_append] at distinct
    exact distinct.2.2 h issued h (List.mem_singleton_self h) rfl

theorem lookup_none_run {h : ConnHandle} (labels : List PoolLabel)
    (slots : Slots sys.pool sys.handles) (issued : h ∈ sys.handles)
    (gone : sys.pool.lookup h = none) :
    Slots (poolMachine.run sys labels).1.pool (poolMachine.run sys labels).1.handles ∧
      h ∈ (poolMachine.run sys labels).1.handles ∧
      (poolMachine.run sys labels).1.pool.lookup h = none := by
  induction labels generalizing sys with
  | nil => exact ⟨slots, issued, gone⟩
  | cons label labels ih =>
      have move := sys.step_move label
      rw [Machine.run_cons]
      exact ih (slots_move slots move) ((handles_move slots move).subset issued)
        (lookup_none_move slots move issued gone)

end System

omit [AcceptDigest] in
/-- A handle given out is made of the slot and the generation that it names. -/
theorem System.handle_parts {sys : System} (slots : Slots sys.pool sys.handles) {h : ConnHandle}
    (issued : h ∈ sys.handles) :
    h = ConnHandle.fromParts h.asU32 h.generation ∧ h.raw < 2 ^ 56 := by
  obtain ⟨i, generation, current, rfl, known, older, -, -⟩ := slots.issued h issued
  have small : i ≤ connIdMask := by
    have inside : i < sys.pool.generations.length := (List.getElem?_eq_some_iff.mp known).1
    have length := slots.length
    have below := slots.small
    omega
  have fits : generation ≤ connGenerationMask := Nat.le_trans older (slots.bounded _ _ known)
  have slotId : (ConnHandle.fromParts i generation).asU32 = i := tokenConnId_encode small
  have ofSlot : (ConnHandle.fromParts i generation).generation = generation :=
    tokenGeneration_encode small fits
  rw [slotId, ofSlot]
  exact ⟨rfl, encodeConnToken_lt small fits⟩

/-- Every call through the handle fails and leaves the pool alone. -/
structure Pool.Stale (pool : Pool) (h : ConnHandle) : Prop where
  state : pool.state h = none
  stats : pool.ingressStats h = none
  sends : ∀ what : SendCall, ∃ e, pool.sendWith h what.run = (pool, .error e)
  close : ∀ code reason, ∃ e, pool.initiateClose h code reason = (pool, .error e)
  remove : ∃ e, pool.removeConn h = (pool, .error e)
  reconnect : ∀ cfg addr opening, ∃ e, pool.submitReconnectTo h cfg addr opening = (pool, .error e)

theorem System.stale_of_lookup {sys : System} (slots : Slots sys.pool sys.handles) {h : ConnHandle}
    (issued : h ∈ sys.handles) (gone : sys.pool.lookup h = none) : sys.pool.Stale h := by
  have removed : ∃ e, sys.pool.removeConn h = (sys.pool, .error e) := by
    obtain ⟨parts, -⟩ := handle_parts slots issued
    have refused : sys.pool.retireSlot h.asU32 h.generation = (sys.pool, false) := by
      unfold Pool.retireSlot
      split
      next => rfl
      next dead found =>
        split
        next => rfl
        next same =>
          -- slot and generation make up the whole handle
          simp only [ne_eq, Decidable.not_not] at same
          have carried : ConnHandle.fromConn dead = h := by
            obtain ⟨id, -⟩ := slots.occupant _ _ found
            rw [parts, same, ← id]
            rfl
          have still := (lookup_iff slots).mpr ⟨_, found, carried⟩
          rw [gone] at still
          simp at still
    exact ⟨.invalidState .closed, by simp [Pool.removeConn, refused]⟩
  constructor
  case state => simp [Pool.state, gone]
  case stats => simp [Pool.ingressStats, gone]
  case sends =>
    intro what
    exact ⟨.invalidState .closed, by simp [Pool.sendWith, Pool.connMut, gone]⟩
  case close =>
    intro code reason
    exact ⟨.invalidState .closed, by simp [Pool.initiateClose, Pool.connMut, gone]⟩
  case remove => exact removed
  case reconnect =>
    intro cfg addr opening
    obtain ⟨e, failed⟩ := removed
    exact ⟨e, by simp [Pool.submitReconnectTo, failed]⟩

/-- Handling a completion touches no slot but its own. -/
theorem System.dispatch_frame {sys : System} (pump : PumpKind) {c : Completion}
    {rest : List Completion} (buffered : sys.pool.completionsBuf = c :: rest) {j : Nat}
    (elsewhere : ∀ conn, PumpCall.connForCompletion sys.pool.conns c ≠ some (j, conn)) :
    (poolMachine.step sys (.dispatch pump)).1.pool.connAt j = sys.pool.connAt j := by
  have finished (call : PumpCall) (i : Nat) (conn : ConnectionState)
      (result : Except ConnectionError Nat) (wasActive : Bool) :
      ∃ conn', (call.finishConnResult i conn result wasActive).pool.conns =
        call.pool.conns.set i (some conn') := by
    cases result <;> exact ⟨_, rfl⟩
  simp only [poolMachine, System.enabled, if_true, System.act, System.through_eq, Pool.connAt,
    PumpCall.dispatchNext, buffered]
  cases routed : PumpCall.connForCompletion sys.pool.conns c with
  | none => rfl
  | some slot =>
      obtain ⟨i, conn⟩ := slot
      have other : i ≠ j := by
        rintro rfl
        exact elsewhere conn routed
      dsimp only
      split
      next =>
        obtain ⟨conn', set⟩ := finished _ i _ _ _
        rw [set, List.getElem?_set_ne other]
        rfl
      next =>
        obtain ⟨conn', set⟩ := finished _ i _ _ _
        rw [set, List.getElem?_set_ne other]
        rfl

/-- Handles are never shared.  Every handle given out is new; a handle whose connection was
removed fails every call from then on; and a completion only ever touches the connection
whose token it carries. -/
theorem handles_never_alias {sys : System}
    (reached : poolMachine.Reach Machine.always sys) :
    sys.handles.Nodup ∧
      (∀ cfg addr opening blocking h, sys.idle = true →
        (sys.pool.submitConnectTo cfg addr opening).2 = .ok h →
        (poolMachine.step sys (.connect cfg addr opening blocking)).1.handles =
          sys.handles ++ [h]) ∧
      (∀ h ∈ sys.handles, (sys.pool.removeConn h).2 = .ok () →
        (sys.pool.removeConn h).1.lookup h = none) ∧
      (∀ h ∈ sys.handles, sys.pool.lookup h = none →
        ∀ labels, (poolMachine.run sys labels).1.pool.Stale h) ∧
      ∀ h ∈ sys.handles, ∀ kind pump c rest, sys.pool.completionsBuf = c :: rest →
        c.userData = UserData.new kind h.raw →
        ∀ j conn, sys.pool.connAt j = some conn → ConnHandle.fromConn conn ≠ h →
          (poolMachine.step sys (.dispatch pump)).1.pool.connAt j = some conn := by
  have slots := System.slots_reach reached
  refine ⟨slots.distinct, ?_, ?_, ?_, ?_⟩
  · intro cfg addr opening blocking h idle accepted
    rcases System.openConn_cases slots cfg addr opening blocking with ⟨_, _, e, _, refused, -⟩ |
      ⟨_, _, conn, _, _, _, _, -, -, -, -, -, -, opened, same⟩
    · rw [refused] at accepted
      simp at accepted
    · rw [opened] at accepted
      simp only [Except.ok.injEq] at accepted
      have stepped : (poolMachine.step sys (.connect cfg addr opening blocking)).1 =
          sys.openConn cfg addr opening blocking := by
        simp [poolMachine, System.enabled, System.act, idle]
      rw [stepped, same]
      simp [System.handles, HistoryEntry.handle?, accepted]
  · intro h issued removed
    have retired : sys.pool.retireSlot h.asU32 h.generation = ((sys.pool.removeConn h).1, true) := by
      unfold Pool.removeConn at removed ⊢
      split at removed
      next pool' gone =>
        rw [gone]
      next => simp at removed
    have vacant : (sys.pool.removeConn h).1.connAt h.asU32 = none := by
      cases found : sys.pool.connAt h.asU32 with
      | none => simp [Pool.retireSlot, found] at retired
      | some dead =>
          by_cases same : h.generation = dead.identity.generation
          · rw [same, Pool.retireSlot_eq found (slots.occupant _ _ found).2] at retired
            rw [← congrArg Prod.fst retired, Pool.connAt_vacated found, if_pos rfl]
          · simp [Pool.retireSlot, found, same] at retired
    simp [Pool.lookup, vacant]
  · intro h issued gone labels
    obtain ⟨slots', issued', gone'⟩ := System.lookup_none_run labels slots issued gone
    exact System.stale_of_lookup slots' issued' gone'
  · intro h issued kind pump c rest buffered built j conn found other
    rw [← found]
    apply System.dispatch_frame pump buffered
    intro conn' routed
    obtain ⟨here, token, -⟩ := System.connForCompletion_spec routed
    rw [found, Option.some.injEq] at here
    have carried : conn.token = h.raw := by
      rw [here, token, built, UserData.token_new kind (System.handle_parts slots issued).2]
    exact other (congrArg ConnHandle.mk carried)

end Identity

/-! ## A handle that outlives its connection -/

attribute [local instance] Sample.rustls Ws.Sample.digest

def removedAndReused : List PoolLabel :=
  [.connect Sample.config Sample.addr Sample.opening false, .remove Sample.handle,
    .connect Sample.config Sample.addr Sample.opening false]

theorem handles_never_alias_reused :
    let sys := (poolMachine.run (Sample.start 256 fun _ => none) removedAndReused).1
    sys.handles = [Sample.handle, .fromParts 0 1] ∧
      ∀ labels, (poolMachine.run sys labels).1.pool.Stale Sample.handle :=
  ⟨by decide +kernel,
    (handles_never_alias (.run_always (.start (Sample.start_initial _ (by decide)))
      removedAndReused)).2.2.2.1 Sample.handle (by decide +kernel)
      (Option.isNone_iff_eq_none.mp (by decide +kernel))⟩

end Talaris
