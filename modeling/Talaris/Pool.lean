import Talaris.Connection.Completion
import Talaris.Ws.Poll

/-!
# The pool

One proactor serves many connections.  A slot table holds them; a completion finds its
slot by the low bits of its token and is dropped unless the whole token matches.  The
functions here are those of `Pool` and the free functions behind its pumps.  What the
kernel posts while a call runs is an argument of the call.
-/

namespace Talaris

open Talaris.Ws

structure ConnHandle where
  raw : Nat
  deriving DecidableEq, Repr

namespace ConnHandle

def asU32 (h : ConnHandle) : Nat := tokenConnId h.raw

def generation (h : ConnHandle) : Nat := tokenGeneration h.raw

def fromParts (connId generation : Nat) : ConnHandle := ⟨encodeConnToken connId generation⟩

def fromConn [Rustls] (conn : ConnectionState) : ConnHandle := ⟨conn.token⟩

end ConnHandle

structure PoolConfig where
  proactor : ProactorConfig := {}
  postProgressSpinIters : Nat := 0
  deriving DecidableEq, Repr

/-- The pool.  Both free lists are stacks with their top in front; of `completionsBuf` only
the completions still to be handled are kept. -/
structure Pool [Rustls] where
  proactor : Proactor
  conns : List (Option ConnectionState)
  generations : List Nat
  freeConnIds : List Nat
  freeBgids : List Nat
  activeCount : Nat
  nextConnId : Nat
  nextBgid : Nat
  completionsBuf : List Completion
  postProgressSpinIters : Nat

namespace Pool

variable [Rustls]

def new (cfg : PoolConfig) (bundle : Bool) (faults : Nat → Option IoError) :
    Except ProactorError Pool :=
  match Proactor.new cfg.proactor bundle faults with
  | .error e => .error e
  | .ok proactor =>
      .ok ⟨proactor, [], [], [], [], 0, 0, 0, [], cfg.postProgressSpinIters⟩

/-- The connection in a slot. -/
def connAt (pool : Pool) (i : Nat) : Option ConnectionState := pool.conns[i]?.join

def setConn (pool : Pool) (i : Nat) (conn : ConnectionState) : Pool :=
  { pool with conns := pool.conns.set i (some conn) }

/-! ## Identities -/

def reserveConnId (pool : Pool) : Pool × Except ConnectionError Nat :=
  match pool.freeConnIds with
  | connId :: rest => ({ pool with freeConnIds := rest }, .ok connId)
  | [] =>
      if connIdMask < pool.nextConnId then (pool, .error (.idSpaceExhausted "conn_id"))
      else
        ({ pool with
            nextConnId := pool.nextConnId + 1
            conns := pool.conns ++ [none]
            generations := pool.generations ++ [0] },
          .ok pool.nextConnId)

/-- `checked_add` on a `u16`. -/
def reserveBgid (pool : Pool) : Pool × Except ConnectionError Nat :=
  match pool.freeBgids with
  | bgid :: rest => ({ pool with freeBgids := rest }, .ok bgid)
  | [] =>
      if u16Max < pool.nextBgid + 1 then (pool, .error (.idSpaceExhausted "bgid"))
      else ({ pool with nextBgid := pool.nextBgid + 1 }, .ok pool.nextBgid)

def releaseBgid (pool : Pool) (bgid : Nat) : Pool :=
  { pool with freeBgids := bgid :: pool.freeBgids }

def releaseReservedIdentity (pool : Pool) (identity : ConnectionRuntimeIdentity) : Pool :=
  { pool with freeConnIds := identity.connId :: pool.freeConnIds }.releaseBgid identity.bgid

def reserveRuntimeIdentity (pool : Pool) :
    Pool × Except ConnectionError ConnectionRuntimeIdentity :=
  match pool.reserveBgid with
  | (pool, .error e) => (pool, .error e)
  | (pool, .ok bgid) =>
      match pool.reserveConnId with
      | (pool, .error e) => (pool.releaseBgid bgid, .error e)
      | (pool, .ok connId) =>
          -- a reserved slot has a generation
          (pool, .ok ⟨connId, pool.generations.getD connId 0, bgid⟩)

/-- The generation of a slot that cannot grow any more retires the slot for good. -/
def recycleConnSlot (pool : Pool) (connId : Nat) : Pool :=
  match pool.generations[connId]? with
  | none => pool
  | some generation =>
      if connGenerationMask ≤ generation then pool
      else
        { pool with
          generations := pool.generations.set connId (generation + 1)
          freeConnIds := connId :: pool.freeConnIds }

def connIsActive (conn : ConnectionState) : Bool := conn.state ≠ .closed

/-- Unregister the ring of a connection that leaves its slot; its group id may be used again
if that worked or if there is no ring. -/
def unregisterDead (proactor : Proactor) (dead : ConnectionState) : Proactor × Bool :=
  match dead.bufRing with
  | none => (proactor, true)
  | some ring =>
      match ring.unregister proactor with
      | (proactor, _, .ok ()) => (proactor, true)
      | (proactor, _, .error _) => (proactor, false)

/-- Take the connection out of its slot, if the slot holds one of this generation. -/
def retireSlot (pool : Pool) (connId generation : Nat) : Pool × Bool :=
  match pool.connAt connId with
  | none => (pool, false)
  | some dead =>
      if generation ≠ dead.identity.generation then (pool, false)
      else
        let (proactor, recycleBgid) := unregisterDead pool.proactor dead
        let pool :=
          { pool with
            proactor
            conns := pool.conns.set connId none
            activeCount :=
              if connIsActive dead then pool.activeCount - 1 else pool.activeCount }
        let pool := pool.recycleConnSlot connId
        (if recycleBgid then pool.releaseBgid dead.identity.bgid else pool, true)

/-! ## Opening and removing connections -/

def submitConnectTo [AcceptDigest] (pool : Pool) (cfg : ConnectionConfig) (addr : SocketAddr)
    (opening : Opening) : Pool × Except ConnectionError ConnHandle :=
  match pool.reserveRuntimeIdentity with
  | (pool, .error e) => (pool, .error e)
  | (pool, .ok identity) =>
      match ConnectionState.new cfg identity addr opening with
      | .error e => (pool.releaseReservedIdentity identity, .error e)
      | .ok conn =>
          match conn.submitConnect pool.proactor with
          | (_, proactor, .error e) =>
              ({ pool with proactor }.releaseReservedIdentity identity, .error e)
          | (conn, proactor, .ok ()) =>
              let pool := { pool with proactor }.setConn identity.connId conn
              ({ pool with activeCount := pool.activeCount + 1 },
                .ok (ConnHandle.fromParts identity.connId identity.generation))

def removeConn (pool : Pool) (h : ConnHandle) : Pool × Except ConnectionError Unit :=
  match pool.retireSlot h.asU32 h.generation with
  | (pool, true) => (pool, .ok ())
  | (pool, false) => (pool, .error (.invalidState .closed))

/-- The old connection is gone also when the new one cannot be opened. -/
def submitReconnectTo [AcceptDigest] (pool : Pool) (old : ConnHandle) (cfg : ConnectionConfig)
    (addr : SocketAddr) (opening : Opening) : Pool × Except ConnectionError ConnHandle :=
  match pool.removeConn old with
  | (pool, .error e) => (pool, .error e)
  | (pool, .ok ()) => pool.submitConnectTo cfg addr opening

/-! ## Calls on a handle -/

/-- The connection of a handle; the whole token has to match. -/
def lookup (pool : Pool) (h : ConnHandle) : Option ConnectionState :=
  (pool.connAt h.asU32).filter fun conn => conn.token = h.raw

def state (pool : Pool) (h : ConnHandle) : Option State := (pool.lookup h).map (·.state)

def ingressStats (pool : Pool) (h : ConnHandle) : Option IngressStats :=
  (pool.lookup h).map (·.ingressStats)

def connCount (pool : Pool) : Nat := pool.activeCount

def connMut (pool : Pool) (h : ConnHandle) : Except ConnectionError ConnectionState :=
  match pool.lookup h with
  | some conn => .ok conn
  | none => .error (.invalidState .closed)

/-- The part the four senders share. -/
def sendWith (pool : Pool) (h : ConnHandle)
    (send : WsClient → WsClient × Except WsError Unit) : Pool × Except ConnectionError Unit :=
  match pool.connMut h with
  | .error e => (pool, .error e)
  | .ok conn =>
      match conn.assertOpen with
      | .error e => (pool, .error e)
      | .ok () =>
          match send conn.ws with
          | (ws, .error e) => (pool.setConn h.asU32 { conn with ws }, .error (.ws e))
          | (ws, .ok ()) => (pool.setConn h.asU32 { conn with ws }, .ok ())

def sendText (pool : Pool) (h : ConnHandle) (payload : Bytes) :
    Pool × Except ConnectionError Unit := pool.sendWith h fun ws => ws.sendText payload

def sendBinary (pool : Pool) (h : ConnHandle) (payload : Bytes) :
    Pool × Except ConnectionError Unit := pool.sendWith h fun ws => ws.sendBinary payload

def sendPing (pool : Pool) (h : ConnHandle) (payload : Bytes) :
    Pool × Except ConnectionError Unit := pool.sendWith h fun ws => ws.sendPing payload

def sendPong (pool : Pool) (h : ConnHandle) (payload : Bytes) :
    Pool × Except ConnectionError Unit := pool.sendWith h fun ws => ws.sendPong payload

def initiateClose (pool : Pool) (h : ConnHandle) (code : Nat) (reason : Bytes) :
    Pool × Except ConnectionError Unit :=
  match pool.connMut h with
  | .error e => (pool, .error e)
  | .ok conn =>
      if conn.state = .closed ∨ conn.state = .closing then (pool, .ok ())
      else
        match conn.ws.sendClose code reason with
        | (ws, .error e) => (pool.setConn h.asU32 { conn with ws }, .error (.ws e))
        | (ws, .ok ()) =>
            let state := if conn.state = .isOpen then .closing else conn.state
            (pool.setConn h.asU32 { conn with ws, state }, .ok ())

end Pool

/-! ## Pumps -/

/-- A pump call in progress: the pool, the first error and the sink calls so far. -/
structure PumpCall [Rustls] where
  pool : Pool
  firstErr : Option ConnectionError
  out : List (ConnHandle × SinkItem)

namespace PumpCall

variable [Rustls]

def start (pool : Pool) : PumpCall := ⟨pool, none, []⟩

/-- `fail_conn` and the count that goes with it. -/
def failConnAndAccount (call : PumpCall) (i : Nat) (conn : ConnectionState) (e : ConnectionError)
    (wasActive : Bool) : PumpCall :=
  { call with
    pool :=
      { call.pool.setConn i { conn with state := .closed } with
        activeCount :=
          if wasActive || Pool.connIsActive conn then call.pool.activeCount - 1
          else call.pool.activeCount }
    firstErr := call.firstErr <|> some e }

/-- The count after a step without error. -/
def accountClosedTransition (activeCount : Nat) (wasActive : Bool) (conn : ConnectionState) :
    Nat :=
  if wasActive && !Pool.connIsActive conn then activeCount - 1 else activeCount

def finishConnResult (call : PumpCall) (i : Nat) (conn : ConnectionState)
    (result : Except ConnectionError Nat) (wasActive : Bool) : PumpCall :=
  match result with
  | .ok _ =>
      let conn := conn.syncWsOpenState.syncWsCloseState
      { call with
        pool :=
          { call.pool.setConn i conn with
            activeCount := accountClosedTransition call.pool.activeCount wasActive conn } }
  | .error e => call.failConnAndAccount i conn e wasActive

/-- The submit phase of one slot. -/
def submitConnAt (call : PumpCall) (i : Nat) : PumpCall :=
  match call.pool.connAt i with
  | none => call
  | some conn =>
      let wasActive := Pool.connIsActive conn
      match conn.trySubmitSend call.pool.proactor with
      | (conn, proactor, .error e) =>
          { call with pool := { call.pool with proactor } }.failConnAndAccount i conn e wasActive
      | (conn, proactor, .ok ()) =>
          match conn.tryRearmMultishot proactor with
          | (conn, proactor, .error e) =>
              { call with pool := { call.pool with proactor } }.failConnAndAccount i conn e
                wasActive
          | (conn, proactor, .ok ()) =>
              { call with pool := { call.pool with proactor }.setConn i conn }

def submitConnOps (call : PumpCall) : PumpCall :=
  (List.range call.pool.conns.length).foldl submitConnAt call

/-- The slot and the connection that a completion belongs to. -/
def connForCompletion (conns : List (Option ConnectionState)) (c : Completion) :
    Option (Nat × ConnectionState) :=
  let token := c.userData.token
  match conns[tokenConnId token]?.join with
  | none => none
  | some conn => if conn.token = token then some (tokenConnId token, conn) else none

section Dispatch

variable [AcceptDigest]

/-- The completions after the first that are handled with it: as long as they belong to the
same connection and are plain data. -/
def runAfter (conn : ConnectionState) (token : Nat) (rest : List Completion) :
    List Completion :=
  rest.takeWhile fun next =>
    next.userData.token = token && conn.canHandlePlainRecvDataBatch next

/-- How many of the following completions are handled together with the first; `none` if
the first is handled by itself.  Batch pumps also take a run of one. -/
def runOf (pump : PumpKind) (conn : ConnectionState) (c : Completion) (rest : List Completion) :
    Option (List Completion) :=
  if pump.isData && conn.canHandlePlainRecvDataBatch c then
    let after := runAfter conn c.userData.token rest
    if pump.isBatched || !after.isEmpty then some after else none
  else none

/-- Sink calls under the handle of the connection. -/
def emit (call : PumpCall) (conn : ConnectionState) (out : List SinkItem) : PumpCall :=
  { call with out := call.out ++ out.map fun item => (ConnHandle.fromConn conn, item) }

/-- The next completion, or the next run, of the completions drained. -/
def dispatchNext (pump : PumpKind) (call : PumpCall) : PumpCall :=
  match call.pool.completionsBuf with
  | [] => call
  | c :: rest =>
      match connForCompletion call.pool.conns c with
      | none => { call with pool := { call.pool with completionsBuf := rest } }
      | some (i, conn) =>
          let wasActive := Pool.connIsActive conn
          match runOf pump conn c rest with
          | some after =>
              let handled := conn.batchHandler pump (c :: after)
              let pool := { call.pool with completionsBuf := rest.drop after.length }
              { call with pool }.emit conn handled.out |>.finishConnResult i handled.conn
                handled.result wasActive
          | none =>
              let (proactor, handled) := conn.completionHandler call.pool.proactor pump c
              let pool := { call.pool with completionsBuf := rest, proactor }
              { call with pool }.emit conn handled.out |>.finishConnResult i handled.conn
                handled.result wasActive

/-- The loop over all completions drained; every turn takes at least one. -/
def dispatchConnCompletions (pump : PumpKind) (call : PumpCall) : PumpCall :=
  (dispatchNext pump)^[call.pool.completionsBuf.length] call

/-- The events of one slot after a general pump. -/
def pollConnAt (call : PumpCall) (i : Nat) : PumpCall :=
  match call.pool.connAt i with
  | none => call
  | some conn =>
      if conn.state = .closed then
        { call with pool := call.pool.setConn i conn.clearWsIngressDirty }
      else
        let (ws, events, error) := conn.ws.pollAll
        let polled := { conn with ws }
        let call := call.emit conn (events.map .event)
        -- the failed connection is synced as well
        match error with
        | some e =>
            let call := call.failConnAndAccount i polled (.ws e) (Pool.connIsActive polled)
            let failed := { polled with state := .closed }
            { call with
              pool := call.pool.setConn i
                failed.syncWsOpenState.syncWsCloseState.clearWsIngressDirty }
        | none =>
            { call with
              pool := call.pool.setConn i
                polled.syncWsOpenState.syncWsCloseState.clearWsIngressDirty }

def pollConns (call : PumpCall) : PumpCall :=
  (List.range call.pool.conns.length).foldl pollConnAt call

/-- Drain what is ready into the empty buffer. -/
def drainCompletions (call : PumpCall) : PumpCall :=
  let (proactor, completions) := call.pool.proactor.drainCompletions
  { call with pool := { call.pool with proactor, completionsBuf := completions } }

/-- What the kernel posts meanwhile. -/
def arrive (call : PumpCall) (posts : List Proactor.Post) : PumpCall :=
  { call with
    pool := { call.pool with proactor := posts.foldl Proactor.post call.pool.proactor } }

/-- The entry into the kernel that may fail the whole call. -/
def enter (call : PumpCall) (syscall : Proactor → Proactor × Except ProactorError Unit) :
    PumpCall × Except ConnectionError Unit :=
  match syscall call.pool.proactor with
  | (proactor, .error e) =>
      ({ call with pool := { call.pool with proactor } }, .error (.proactor e))
  | (proactor, .ok ()) => ({ call with pool := { call.pool with proactor } }, .ok ())

/-- Submit, let the kernel work, wait. -/
def submitAndWait (call : PumpCall) (waitNr : Nat) (posts : List Proactor.Post) :
    PumpCall × Except ConnectionError Unit :=
  match call.submitConnOps.enter Proactor.submit with
  | (call, .error e) => (call, .error e)
  | (call, .ok ()) => (call.arrive posts).enter fun proactor => proactor.waitForCqe waitNr

/-- How a call ends that was not cut short. -/
def verdict (call : PumpCall) : Except ConnectionError Unit :=
  match call.firstErr with
  | some e => .error e
  | none => .ok ()

/-- `pump_impl` and the four data pumps. -/
def pumpFor (pump : PumpKind) (pool : Pool) (waitNr : Nat) (posts : List Proactor.Post) :
    PumpCall × Except ConnectionError Unit :=
  match (start pool).submitAndWait waitNr posts with
  | (call, .error e) => (call, .error e)
  | (call, .ok ()) =>
      let call := call.drainCompletions.dispatchConnCompletions pump
      let call := if pump.isData then call else call.pollConns
      (call, call.verdict)

/-! ### Busy polling -/

/-- What the kernel posts before a drain of a spin, and before each drain after progress. -/
structure SpinPosts where
  posts : List Proactor.Post
  more : Nat → List Proactor.Post

/-- Drain once. -/
def drainConnCompletions (pump : PumpKind) (posts : List Proactor.Post) (call : PumpCall) :
    PumpCall :=
  (call.arrive posts).drainCompletions.dispatchConnCompletions pump

/-- After progress: drain again until the budget is spent or an error comes up. -/
def drainPostProgress (pump : PumpKind) (more : Nat → List Proactor.Post) :
    Nat → PumpCall → PumpCall
  | 0, call => call
  | left + 1, call =>
      let call := call.drainConnCompletions pump (more left)
      if call.firstErr.isSome then call else drainPostProgress pump more left call

/-- One turn of a spin: the call, and whether it made progress. -/
def spinTurn (pump : PumpKind) (turn : SpinPosts) (call : PumpCall) : PumpCall × Bool :=
  let cqes := (call.arrive turn.posts).pool.proactor.cq.length
  let call := call.drainConnCompletions pump turn.posts
  if pump.isData then
    (if cqes = 0 then call
      else call.drainPostProgress pump turn.more call.pool.postProgressSpinIters, cqes ≠ 0)
  else
    let polled := call.pollConns
    (polled, cqes ≠ 0 || call.out.length < polled.out.length || call.firstErr ≠ polled.firstErr)

/-- Turns until one makes progress or fails. -/
def spin (pump : PumpKind) (turns : Nat → SpinPosts) : Nat → PumpCall → PumpCall × Bool
  | 0, call => (call, false)
  | left + 1, call =>
      let (call, progressed) := call.spinTurn pump (turns left)
      if progressed || call.firstErr.isSome then (call, progressed) else spin pump turns left call

/-- `pump_spin_impl` and the four data pumps that spin. -/
def pumpSpinFor (pump : PumpKind) (pool : Pool) (spinIters : Nat) (turns : Nat → SpinPosts) :
    PumpCall × Except ConnectionError Bool :=
  match (start pool).submitConnOps.enter Proactor.submit with
  | (call, .error e) => (call, .error e)
  | (call, .ok ()) =>
      let (call, progressed) := spin pump turns (spinIters + 1) call
      (call, call.verdict.map fun () => progressed)

/-! ### Driving a connection open -/

/-- One round for all connections; no event is polled. -/
def driveOpenOnce (pool : Pool) (waitNr : Nat) (posts : List Proactor.Post) :
    PumpCall × Except ConnectionError Unit :=
  match (start pool).submitAndWait waitNr posts with
  | (call, .error e) => (call, .error e)
  | (call, .ok ()) =>
      let call := call.drainCompletions.dispatchConnCompletions .events
      (call, call.verdict)

end Dispatch

end PumpCall

namespace Pool

variable [Rustls] [AcceptDigest]

/-- One event of the connection driven open; it is not for the sink.  A missing connection is
a panic of the source, here and in the loop below. -/
def driveTargetHandshakeEvent (pool : Pool) (connId : Nat) : Pool × Except ConnectionError Unit :=
  match pool.connAt connId with
  | none => (pool, .ok ())
  | some conn =>
      if conn.state = .isOpen ∨ conn.state = .closed then (pool, .ok ())
      else
        let wasActive := connIsActive conn
        match conn.ws.pollEvent with
        | (ws, some (.error e)) =>
            (((PumpCall.start pool).failConnAndAccount connId { conn with ws } (.ws e)
              wasActive).pool, .error (.ws e))
        | (ws, _) =>
            let conn := { conn with ws }.syncWsOpenState.syncWsCloseState
            ({ pool.setConn connId conn with
                activeCount :=
                  PumpCall.accountClosedTransition pool.activeCount wasActive conn },
              .ok ())

/-- The end of a turn of the loop: the state decides whether it goes on. -/
def driveVerdict (pool : Pool) (connId : Nat) : Pool × Option (Except ConnectionError Unit) :=
  match pool.connAt connId with
  | none => (pool, some (.error .peerClosed))
  | some conn =>
      let conn := conn.syncWsOpenState
      (pool.setConn connId conn,
        match conn.state with
        | .isOpen => some (.ok ())
        | .closed => some (.error .peerClosed)
        | .init | .connecting | .tlsHandshake | .wsHandshake | .closing => none)

def driveTurn (pool : Pool) (connId : Nat) (posts : List Proactor.Post) :
    Pool × Option (Except ConnectionError Unit) :=
  match PumpCall.driveOpenOnce pool 1 posts with
  | (call, .error e) => (call.pool, some (.error e))
  | (call, .ok ()) =>
      match call.pool.driveTargetHandshakeEvent connId with
      | (pool, .error e) => (pool, some (.error e))
      | (pool, .ok ()) => pool.driveVerdict connId

/-- The loop, over what the kernel posts in each turn; `none` while it has not returned. -/
def driveConnUntilOpen (pool : Pool) (connId : Nat) :
    List (List Proactor.Post) → Pool × Option (Except ConnectionError Unit)
  | [] => (pool, none)
  | posts :: rest =>
      match pool.driveTurn connId posts with
      | (pool, some result) => (pool, some result)
      | (pool, none) => driveConnUntilOpen pool connId rest

/-- The blocking calls: open, drive, and take the slot back if that fails. -/
def driveOpened (opened : Pool × Except ConnectionError ConnHandle)
    (rounds : List (List Proactor.Post)) : Pool × Option (Except ConnectionError ConnHandle) :=
  match opened with
  | (pool, .error e) => (pool, some (.error e))
  | (pool, .ok handle) =>
      match pool.driveConnUntilOpen handle.asU32 rounds with
      | (pool, none) => (pool, none)
      | (pool, some (.ok ())) => (pool, some (.ok handle))
      | (pool, some (.error e)) =>
          ((pool.retireSlot handle.asU32 handle.generation).1, some (.error e))

def connectBlockingTo (pool : Pool) (cfg : ConnectionConfig) (addr : SocketAddr)
    (opening : Opening) (rounds : List (List Proactor.Post)) :
    Pool × Option (Except ConnectionError ConnHandle) :=
  driveOpened (pool.submitConnectTo cfg addr opening) rounds

def reconnectTo (pool : Pool) (old : ConnHandle) (cfg : ConnectionConfig) (addr : SocketAddr)
    (opening : Opening) (rounds : List (List Proactor.Post)) :
    Pool × Option (Except ConnectionError ConnHandle) :=
  driveOpened (pool.submitReconnectTo old cfg addr opening) rounds

/-! ### The pumps by name -/

section Members

variable (pool : Pool) (posts : List Proactor.Post) (spinIters : Nat)
  (turns : Nat → PumpCall.SpinPosts)

def pump := PumpCall.pumpFor .events pool 1 posts

def pumpNowait := PumpCall.pumpFor .events pool 0 posts

def pumpSpin := PumpCall.pumpSpinFor .events pool spinIters turns

def pumpData := PumpCall.pumpFor .data pool 1 posts

def pumpDataNowait := PumpCall.pumpFor .data pool 0 posts

def pumpDataSpin := PumpCall.pumpSpinFor .data pool spinIters turns

def pumpDataMarked := PumpCall.pumpFor .dataMarked pool 1 posts

def pumpDataMarkedNowait := PumpCall.pumpFor .dataMarked pool 0 posts

def pumpDataSpinMarked := PumpCall.pumpSpinFor .dataMarked pool spinIters turns

def pumpDataBatches := PumpCall.pumpFor .dataBatches pool 1 posts

def pumpDataBatchesNowait := PumpCall.pumpFor .dataBatches pool 0 posts

def pumpDataSpinBatches := PumpCall.pumpSpinFor .dataBatches pool spinIters turns

def pumpDataMarkedBatches := PumpCall.pumpFor .dataMarkedBatches pool 1 posts

def pumpDataMarkedBatchesNowait := PumpCall.pumpFor .dataMarkedBatches pool 0 posts

def pumpDataSpinMarkedBatches := PumpCall.pumpSpinFor .dataMarkedBatches pool spinIters turns

end Members

end Pool

end Talaris
