import Talaris.Pool.Steps

/-!
# Opening and retiring connections
-/

namespace Talaris

open Talaris.Basis
open Talaris.Ws

/-! ## Tokens -/

theorem tokenConnId_encode {connId generation : Nat} (small : connId ≤ connIdMask) :
    tokenConnId (encodeConnToken connId generation) = connId := by
  have bound : connId < 2 ^ 28 := by
    simp only [connIdMask] at small
    omega
  have mask : connIdMask = 2 ^ 28 - 1 := rfl
  simp only [tokenConnId, encodeConnToken, connGenerationShift, mask, Nat.and_two_pow_sub_one_eq_mod]
  rw [← Nat.shiftLeft_add_eq_or_of_lt bound, Nat.shiftLeft_eq]
  omega

theorem tokenGeneration_encode {connId generation : Nat} (small : connId ≤ connIdMask)
    (fits : generation ≤ connGenerationMask) :
    tokenGeneration (encodeConnToken connId generation) = generation := by
  have bound : connId < 2 ^ 28 := by
    simp only [connIdMask] at small
    omega
  have below : generation < 2 ^ 28 := by
    simp only [connGenerationMask] at fits
    omega
  have mask : connGenerationMask = 2 ^ 28 - 1 := rfl
  simp only [tokenGeneration, encodeConnToken, connGenerationShift, mask,
    Nat.and_two_pow_sub_one_eq_mod]
  rw [← Nat.shiftLeft_add_eq_or_of_lt bound, Nat.shiftLeft_eq, Nat.shiftRight_eq_div_pow]
  omega

theorem encodeConnToken_lt {connId generation : Nat} (small : connId ≤ connIdMask)
    (fits : generation ≤ connGenerationMask) : encodeConnToken connId generation < 2 ^ 56 := by
  have bound : connId < 2 ^ 28 := by
    simp only [connIdMask] at small
    omega
  simp only [connGenerationMask] at fits
  simp only [encodeConnToken, connGenerationShift]
  rw [← Nat.shiftLeft_add_eq_or_of_lt bound, Nat.shiftLeft_eq]
  omega

theorem UserData.token_new {token : Nat} (kind : OpKind) (fits : token < 2 ^ 56) :
    (UserData.new kind token).token = token := by
  have mask : UserData.tokenMask = 2 ^ 56 - 1 := rfl
  simp only [UserData.token, UserData.new, mask, Nat.and_two_pow_sub_one_eq_mod]
  rw [Nat.mod_eq_of_lt fits, ← Nat.shiftLeft_add_eq_or_of_lt fits, Nat.shiftLeft_eq]
  omega

theorem ConnHandle.fromParts_injective {i j generation generation' : Nat} (small : i ≤ connIdMask)
    (small' : j ≤ connIdMask) (fits : generation ≤ connGenerationMask)
    (fits' : generation' ≤ connGenerationMask)
    (same : ConnHandle.fromParts i generation = ConnHandle.fromParts j generation') :
    i = j ∧ generation = generation' := by
  have raw : encodeConnToken i generation = encodeConnToken j generation' :=
    congrArg ConnHandle.raw same
  constructor
  · have left : tokenConnId (encodeConnToken i generation) = i := tokenConnId_encode small
    rw [← left, raw, tokenConnId_encode small']
  · rw [← tokenGeneration_encode small fits, raw, tokenGeneration_encode small' fits']

/-! ## Opening a connection -/

section New

variable [Rustls] [AcceptDigest]

/-- A connection with no operation submitted. -/
structure ConnectionState.Made (cfg : ConnectionConfig) (identity : ConnectionRuntimeIdentity)
    (addr : SocketAddr) (opening : Opening) (conn : ConnectionState) : Prop where
  identity : conn.identity = identity
  config : conn.cfg = cfg
  address : conn.addr = addr
  queue : conn.toSendQueue = {}
  ws : WsClient.newClient cfg.effectiveWsConfig opening.rng = .ok conn.ws
  tls : ConnectionState.newTls cfg = .ok conn.tls
  ring : conn.bufRing = none
  pendingOut : conn.tlsPendingOut = []
  armed : conn.multishotArmed = false
  begun : conn.wsHandshakeBegun = false

theorem ConnectionState.new_spec {cfg : ConnectionConfig} {identity : ConnectionRuntimeIdentity}
    {addr : SocketAddr} {opening : Opening} {conn : ConnectionState}
    (made : ConnectionState.new cfg identity addr opening = .ok conn) :
    ConnectionState.Made cfg identity addr opening conn ∧ conn.state = .init := by
  unfold ConnectionState.new at made
  split at made
  next => simp at made
  next socket _ =>
    split at made
    next => simp at made
    next =>
      split at made
      next => simp at made
      next =>
        split at made
        next => simp at made
        next tls secured =>
          split at made
          next => simp at made
          next ws client =>
            split at made
            next => simp at made
            next =>
              simp only [Except.ok.injEq] at made
              subst made
              exact ⟨⟨rfl, rfl, rfl, rfl, client, secured, rfl, rfl, rfl, rfl⟩, rfl⟩

end New

namespace Pool

variable [Rustls]

/-- The pool after a fresh slot, a fresh group id, or both have been put on their empty free
lists. -/
def stocked (pool : Pool) (slot bgid : Bool) : Pool :=
  { pool with
    conns := if slot then pool.conns ++ [none] else pool.conns
    generations := if slot then pool.generations ++ [0] else pool.generations
    freeConnIds := if slot then [pool.nextConnId] else pool.freeConnIds
    nextConnId := if slot then pool.nextConnId + 1 else pool.nextConnId
    freeBgids := if bgid then [pool.nextBgid] else pool.freeBgids
    nextBgid := if bgid then pool.nextBgid + 1 else pool.nextBgid }

/-- Fresh ids are made only when there is no free one. -/
structure Stock (pool : Pool) (slot bgid : Bool) : Prop where
  slots : slot = true → pool.freeConnIds = [] ∧ pool.nextConnId ≤ connIdMask
  bgids : bgid = true → pool.freeBgids = [] ∧ pool.nextBgid + 1 ≤ u16Max

/-- The pool with a connection in a slot that was free. -/
def occupied (pool : Pool) (conn : ConnectionState) (proactor : Proactor) : Pool :=
  { pool with
    proactor
    conns := pool.conns.set conn.identity.connId (some conn)
    freeConnIds := pool.freeConnIds.tail
    freeBgids := pool.freeBgids.tail
    activeCount := pool.activeCount + 1 }

@[simp] theorem connAt_stocked (pool : Pool) (slot bgid : Bool) (j : Nat) :
    (pool.stocked slot bgid).connAt j = pool.connAt j := by
  cases slot with
  | false => rfl
  | true =>
      simp only [connAt, stocked, if_true]
      by_cases inside : j < pool.conns.length
      · rw [List.getElem?_append_left inside]
      · rw [List.getElem?_append_right (Nat.le_of_not_lt inside),
          List.getElem?_eq_none (Nat.le_of_not_lt inside)]
        cases j - pool.conns.length <;> simp

theorem connAt_occupied {pool : Pool} {conn : ConnectionState}
    (inside : conn.identity.connId < pool.conns.length) (proactor : Proactor) (j : Nat) :
    (pool.occupied conn proactor).connAt j =
      if j = conn.identity.connId then some conn else pool.connAt j :=
  connAt_set inside (some conn) j

theorem connAt_occupied_self {pool : Pool} {conn : ConnectionState}
    (inside : conn.identity.connId < pool.conns.length) (proactor : Proactor) :
    (pool.occupied conn proactor).connAt conn.identity.connId = some conn := by
  rw [connAt_occupied inside, if_pos rfl]

theorem connAt_occupied_cases {pool : Pool} {conn now : ConnectionState} {proactor : Proactor}
    {j : Nat} (inside : conn.identity.connId < pool.conns.length)
    (here : (pool.occupied conn proactor).connAt j = some now) :
    (j = conn.identity.connId ∧ now = conn) ∨
      (j ≠ conn.identity.connId ∧ pool.connAt j = some now) := by
  rw [connAt_occupied inside] at here
  split at here
  next same => exact .inl ⟨same, (Option.some.inj here).symm⟩
  next other => exact .inr ⟨other, here⟩

theorem reserveBgid_cases (pool : Pool) :
    (∃ e, pool.reserveBgid = (pool, .error e)) ∨
      ∃ fresh bgid rest, pool.Stock false fresh ∧ (pool.stocked false fresh).freeBgids = bgid :: rest ∧
        pool.reserveBgid = ({ pool.stocked false fresh with freeBgids := rest }, .ok bgid) := by
  unfold reserveBgid
  cases free : pool.freeBgids with
  | cons bgid rest =>
      refine .inr ⟨false, bgid, rest, ⟨by simp, by simp⟩, free, rfl⟩
  | nil =>
      dsimp only
      split
      next => exact .inl ⟨_, rfl⟩
      next fits =>
        refine .inr ⟨true, pool.nextBgid, [], ⟨by simp, fun _ => ⟨free, by omega⟩⟩, rfl, ?_⟩
        simp [stocked]

theorem reserveConnId_cases (pool : Pool) :
    (∃ e, pool.reserveConnId = (pool, .error e)) ∨
      ∃ fresh connId rest, pool.Stock fresh false ∧
        (pool.stocked fresh false).freeConnIds = connId :: rest ∧
        pool.reserveConnId = ({ pool.stocked fresh false with freeConnIds := rest }, .ok connId) := by
  unfold reserveConnId
  cases free : pool.freeConnIds with
  | cons connId rest => exact .inr ⟨false, connId, rest, ⟨by simp, by simp⟩, free, rfl⟩
  | nil =>
      dsimp only
      split
      next => exact .inl ⟨_, rfl⟩
      next fits =>
        refine .inr ⟨true, pool.nextConnId, [], ⟨fun _ => ⟨free, by omega⟩, by simp⟩, rfl, ?_⟩
        simp [stocked]

theorem reserveRuntimeIdentity_cases (pool : Pool) :
    (∃ fresh e, pool.Stock false fresh ∧
        pool.reserveRuntimeIdentity = (pool.stocked false fresh, .error e)) ∨
      ∃ slot fresh connId bgid slots bgids, pool.Stock slot fresh ∧
        (pool.stocked slot fresh).freeConnIds = connId :: slots ∧
        (pool.stocked slot fresh).freeBgids = bgid :: bgids ∧
        pool.reserveRuntimeIdentity =
          ({ pool.stocked slot fresh with freeConnIds := slots, freeBgids := bgids },
            .ok ⟨connId, (pool.stocked slot fresh).generations.getD connId 0, bgid⟩) := by
  unfold reserveRuntimeIdentity
  rcases pool.reserveBgid_cases with ⟨e, refused⟩ | ⟨fresh, bgid, bgids, stock, free, reserved⟩
  · rw [refused]
    exact .inl ⟨false, e, ⟨by simp, by simp⟩, rfl⟩
  · rw [reserved]
    dsimp only
    rcases { pool.stocked false fresh with freeBgids := bgids }.reserveConnId_cases with
      ⟨e, refused⟩ | ⟨slot, connId, slots, stockSlot, freeSlot, taken⟩
    · rw [refused]
      refine .inl ⟨fresh, e, stock, ?_⟩
      simp only [releaseBgid, ← free]
    · rw [taken]
      exact .inr ⟨slot, fresh, connId, bgid, slots, bgids, ⟨stockSlot.slots, stock.bgids⟩, freeSlot,
        free, rfl⟩

/-- A connection is opened in the first free slot and under the first free group id, or the
free ids stay free. -/
theorem submitConnectTo_cases [AcceptDigest] (pool : Pool) (cfg : ConnectionConfig)
    (addr : SocketAddr) (opening : Opening) :
    (∃ slot fresh e, pool.Stock slot fresh ∧
        pool.submitConnectTo cfg addr opening = (pool.stocked slot fresh, .error e)) ∨
      ∃ slot fresh conn slots bgids, pool.Stock slot fresh ∧
        ConnectionState.Made cfg conn.identity addr opening conn ∧ conn.state = .connecting ∧
        (pool.stocked slot fresh).freeConnIds = conn.identity.connId :: slots ∧
        (pool.stocked slot fresh).freeBgids = conn.identity.bgid :: bgids ∧
        conn.identity.generation =
          (pool.stocked slot fresh).generations.getD conn.identity.connId 0 ∧
        pool.submitConnectTo cfg addr opening =
          ((pool.stocked slot fresh).occupied conn
              { pool.proactor with
                sq := pool.proactor.sq ++
                  [.connect conn.socket conn.addr (UserData.new .connect conn.token)] },
            .ok (ConnHandle.fromConn conn)) := by
  unfold submitConnectTo
  rcases pool.reserveRuntimeIdentity_cases with ⟨fresh, e, stock, refused⟩ |
    ⟨slot, fresh, connId, bgid, slots, bgids, stock, freeSlot, freeBgid, reserved⟩
  · rw [refused]
    exact .inl ⟨false, fresh, e, stock, rfl⟩
  · rw [reserved]
    dsimp only
    generalize identified : (⟨connId, (pool.stocked slot fresh).generations.getD connId 0, bgid⟩ :
      ConnectionRuntimeIdentity) = identity
    have released : releaseReservedIdentity
        { pool.stocked slot fresh with freeConnIds := slots, freeBgids := bgids } identity =
          pool.stocked slot fresh := by
      rw [← identified]
      simp only [releaseReservedIdentity, releaseBgid, ← freeSlot, ← freeBgid]
    split
    next e unmade => exact .inl ⟨slot, fresh, e, stock, by rw [released]⟩
    next conn made =>
      obtain ⟨properties, -⟩ := ConnectionState.new_spec made
      have same : conn.identity = identity := properties.identity
      unfold ConnectionState.submitConnect
      rcases pool.proactor.push_spec
        (.connect conn.socket conn.addr (UserData.new .connect conn.token)) with pushed | full
      · refine .inr ⟨slot, fresh, { conn with state := .connecting }, slots, bgids, stock, ?_, rfl,
          ?_, ?_, ?_, ?_⟩
        · rw [same]
          exact { properties with }
        · rw [freeSlot, same, ← identified]
        · rw [freeBgid, same, ← identified]
        · rw [same, ← identified]
        · have unmoved : (pool.stocked slot fresh).proactor = pool.proactor := rfl
          rw [unmoved, pushed]
          simp only [occupied, setConn, freeSlot, freeBgid, List.tail_cons, same]
          simp [ConnHandle.fromParts, ConnHandle.fromConn, ConnectionState.token,
            ConnectionRuntimeIdentity.token, same, ← identified]
      · refine .inl ⟨slot, fresh, .proactor .sqFull, stock, ?_⟩
        have unmoved : (pool.stocked slot fresh).proactor = pool.proactor := rfl
        rw [unmoved, full]
        exact Prod.ext released rfl

/-! ## Retiring a connection -/

/-- The pool after a connection has left its slot, whose generation goes up unless it cannot. -/
def vacated (pool : Pool) (connId : Nat) (dead : ConnectionState) : Pool :=
  { pool with
    proactor := (unregisterDead pool.proactor dead).1
    conns := pool.conns.set connId none
    generations :=
      if connGenerationMask ≤ dead.identity.generation then pool.generations
      else pool.generations.set connId (dead.identity.generation + 1)
    freeConnIds :=
      if connGenerationMask ≤ dead.identity.generation then pool.freeConnIds
      else connId :: pool.freeConnIds
    freeBgids :=
      if (unregisterDead pool.proactor dead).2 then dead.identity.bgid :: pool.freeBgids
      else pool.freeBgids
    activeCount := pool.activeCount - (connIsActive dead).toNat }

theorem connAt_vacated {pool : Pool} {connId : Nat} {dead : ConnectionState}
    (found : pool.connAt connId = some dead) (j : Nat) :
    (pool.vacated connId dead).connAt j = if j = connId then none else pool.connAt j :=
  connAt_set (connAt_lt found) none j

theorem connAt_vacated_cases {pool : Pool} {connId j : Nat} {dead now : ConnectionState}
    (found : pool.connAt connId = some dead)
    (here : (pool.vacated connId dead).connAt j = some now) :
    j ≠ connId ∧ pool.connAt j = some now := by
  rw [connAt_vacated found] at here
  split at here
  next => simp at here
  next other => exact ⟨other, here⟩

theorem retireSlot_eq {pool : Pool} {connId : Nat} {dead : ConnectionState}
    (found : pool.connAt connId = some dead)
    (current : pool.generations[connId]? = some dead.identity.generation) :
    pool.retireSlot connId dead.identity.generation = (pool.vacated connId dead, true) := by
  simp only [retireSlot, found, ne_eq, not_true_eq_false, if_false, recycleConnSlot, current,
    vacated]
  cases connIsActive dead <;> cases (unregisterDead pool.proactor dead).2 <;>
    by_cases exhausted : connGenerationMask ≤ dead.identity.generation <;>
    simp [exhausted, releaseBgid]

end Pool

/-! ## The first state -/

section Initial

variable [Rustls] [AcceptDigest]

theorem System.initial_spec {sys : System} (initial : poolMachine.initial sys) :
    ∃ sqEntries bundle faults spinIters,
      sys = ⟨⟨⟨sqEntries, bundle, [], [], [], [], 0, faults, 0, []⟩, [], [], [], [], 0, 0, 0, [],
        spinIters⟩, none, none, []⟩ := by
  obtain ⟨cfg, bundle, faults, made, noError, undriven, empty⟩ := initial
  obtain ⟨pool, firstErr, driving, history⟩ := sys
  simp only at made noError undriven empty
  subst noError undriven empty
  unfold Pool.new Proactor.new at made
  cases valid : cfg.proactor.validate with
  | error e => simp [valid] at made
  | ok value =>
      simp only [valid, Except.ok.injEq] at made
      exact ⟨_, _, _, _, by rw [← made]⟩

end Initial

/-! ## A pool to run

Plain connections to the server of the sample client. -/

namespace Sample

attribute [local instance] rustls Ws.Sample.digest

def config : ConnectionConfig :=
  { host := Ws.Sample.config.host, port := 80, path := Ws.Sample.config.path, useTls := false,
    bufRingEntries := 8 }

def addr : SocketAddr := .v4 0x7F000001 80

def opening : Opening :=
  ⟨.ok 3, .ok (), .ok (), Ws.Sample.random, .ok (), ⟨id, Int.ofNat, 0, 0⟩⟩

/-- An empty pool. -/
def start (sqEntries : Nat) (faults : Nat → Option IoError) : System :=
  ⟨⟨⟨sqEntries, true, [], [], [], [], 0, faults, 0, []⟩, [], [], [], [], 0, 0, 0, [], 0⟩, none,
    none, []⟩

/-- The handle of the first connection. -/
def handle : ConnHandle := .fromParts 0 0

/-- The bytes of the sample response. -/
def answer : Bytes :=
  [0x48, 0x54, 0x54, 0x50, 0x2F, 0x31, 0x2E, 0x31, 0x20, 0x31, 0x30, 0x31, 0x20, 0x53, 0x77, 0x69,
    0x74, 0x63, 0x68, 0x69, 0x6E, 0x67, 0x20, 0x50, 0x72, 0x6F, 0x74, 0x6F, 0x63, 0x6F, 0x6C,
    0x73, 0x0D, 0x0A, 0x55, 0x70, 0x67, 0x72, 0x61, 0x64, 0x65, 0x3A, 0x20, 0x77, 0x65, 0x62,
    0x73, 0x6F, 0x63, 0x6B, 0x65, 0x74, 0x0D, 0x0A, 0x43, 0x6F, 0x6E, 0x6E, 0x65, 0x63, 0x74,
    0x69, 0x6F, 0x6E, 0x3A, 0x20, 0x55, 0x70, 0x67, 0x72, 0x61, 0x64, 0x65, 0x0D, 0x0A, 0x53,
    0x65, 0x63, 0x2D, 0x57, 0x65, 0x62, 0x53, 0x6F, 0x63, 0x6B, 0x65, 0x74, 0x2D, 0x41, 0x63,
    0x63, 0x65, 0x70, 0x74, 0x3A, 0x20, 0x73, 0x33, 0x70, 0x50, 0x4C, 0x4D, 0x42, 0x69, 0x54,
    0x78, 0x61, 0x51, 0x39, 0x6B, 0x59, 0x47, 0x7A, 0x7A, 0x68, 0x5A, 0x52, 0x62, 0x4B, 0x2B,
    0x78, 0x4F, 0x6F, 0x3D, 0x0D, 0x0A, 0x0D, 0x0A]

/-- Connect, send the request and receive the answer; the send has not completed. -/
def upgrade : List PoolLabel :=
  [.connect config addr opening false, .enter, .post ⟨0, 0, 0, []⟩, .drain, .dispatch .data,
    .submit 0, .enter, .post ⟨0, 129, 3, answer⟩, .drain, .dispatch .data]

theorem start_initial {sqEntries : Nat} (faults : Nat → Option IoError)
    (valid : ProactorConfig.validate { sqEntries } = .ok ()) :
    poolMachine.initial (start sqEntries faults) := by
  refine ⟨⟨{ sqEntries }, 0⟩, true, faults, ?_, rfl, rfl, rfl⟩
  simp only [Pool.new, Proactor.new, valid]
  rfl

end Sample

end Talaris
