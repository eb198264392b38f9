import Talaris.Basis.Transition
import Talaris.Pool

/-!
# The pool as a machine

Between two calls of the user and between the phases of a call the kernel may do
anything, so the machine takes the phases one at a time: the submit phase of one slot, an
entry into the kernel, a drain, the handling of one completion or run, the polling of one
slot.  A call of the API is a run of such steps (`Pool/Api.lean`).  A step that the state
does not allow changes nothing.
-/

namespace Talaris

open Talaris.Basis
open Talaris.Ws

/-- What the history of a run keeps: connections opened, bytes received and sink calls. -/
inductive HistoryEntry where
  | opened (h : ConnHandle) (ws : WsClient) (plain : Bool)
  | received (h : ConnHandle) (bytes : Bytes)
  | delivered (h : ConnHandle) (item : SinkItem)

/-- The pool between two steps: the first error of the call in progress, the connection that
a blocking call drives open, and the history of the run. -/
structure System [Rustls] where
  pool : Pool
  firstErr : Option ConnectionError
  driving : Option Nat
  history : List HistoryEntry

inductive SendCall where
  | text (payload : Bytes)
  | binary (payload : Bytes)
  | ping (payload : Bytes)
  | pong (payload : Bytes)
  deriving DecidableEq, Repr

/-- The sender of the WebSocket client. -/
def SendCall.run (ws : WsClient) : SendCall → WsClient × Except WsError Unit
  | text payload => ws.sendText payload
  | binary payload => ws.sendBinary payload
  | ping payload => ws.sendPing payload
  | pong payload => ws.sendPong payload

inductive PoolLabel [Rustls] where
  | post (post : Proactor.Post)
  | spurious (c : Completion)
  | begin
  | enter
  | drain
  | connect (cfg : ConnectionConfig) (addr : SocketAddr) (opening : Opening) (blocking : Bool)
  | remove (h : ConnHandle)
  | send (h : ConnHandle) (what : SendCall)
  | close (h : ConnHandle) (code : Nat) (reason : Bytes)
  | submit (i : Nat)
  | dispatch (pump : PumpKind)
  | poll (i : Nat)
  | driveTarget
  | driveVerdict
  | abandon

/-- The bytes a completion brought. -/
def Completion.received (c : Completion) : Bytes :=
  match c.userData.kind, c.bufferId, c.toResult with
  | some .recv, some _, .ok n => c.bytes 0 n
  | _, _, _ => []

namespace System

variable [Rustls] [AcceptDigest]

/-- A call of the user is possible: no pump is running and nothing is driven open. -/
def idle (sys : System) : Bool := sys.pool.completionsBuf.isEmpty && sys.driving.isNone

/-- The blocking call goes on: its round is over and had no error. -/
def roundOver (sys : System) : Bool := sys.pool.completionsBuf.isEmpty && sys.firstErr.isNone

def enabled (sys : System) : PoolLabel → Bool
  | .post _ | .spurious _ | .dispatch _ => true
  | .begin | .enter | .drain | .submit _ | .poll _ | .abandon => sys.pool.completionsBuf.isEmpty
  | .connect .. | .remove _ | .send .. | .close .. => sys.idle
  | .driveTarget | .driveVerdict => sys.roundOver

/-- The step of a pump call, with its sink calls in the history. -/
def through (sys : System) (f : PumpCall → PumpCall) : System × List (ConnHandle × SinkItem) :=
  let call := f ⟨sys.pool, sys.firstErr, []⟩
  ({ sys with
      pool := call.pool, firstErr := call.firstErr,
      history := sys.history ++ call.out.map fun entry => .delivered entry.1 entry.2 },
    call.out)

/-- A step of the pool without sink calls. -/
def quietly (sys : System) (pool : Pool) : System × List (ConnHandle × SinkItem) :=
  ({ sys with pool }, [])

/-- The bytes that the next dispatch step takes in, under the connection they belong to. -/
def incoming (sys : System) (pump : PumpKind) : List HistoryEntry :=
  match sys.pool.completionsBuf with
  | [] => []
  | c :: rest =>
      match PumpCall.connForCompletion sys.pool.conns c with
      | none => []
      | some (_, conn) =>
          [.received (ConnHandle.fromConn conn)
            ((c :: (PumpCall.runOf pump conn c rest).getD []).flatMap Completion.received)]

def openConn (sys : System) (cfg : ConnectionConfig) (addr : SocketAddr) (opening : Opening)
    (blocking : Bool) : System :=
  match sys.pool.submitConnectTo cfg addr opening with
  | (pool, .error _) => { sys with pool }
  | (pool, .ok h) =>
      { sys with
        pool
        driving := if blocking then some h.asU32 else none
        history := sys.history ++
          ((pool.connAt h.asU32).map fun conn => .opened h conn.ws conn.tls.isNone).toList }

/-- The loop of a blocking call ends when its connection is open. -/
def endDrive (sys : System) (connId : Nat) : System :=
  match sys.pool.driveVerdict connId with
  | (pool, some (.ok ())) => { sys with pool, driving := none }
  | (pool, _) => { sys with pool }

def act (sys : System) : PoolLabel → System × List (ConnHandle × SinkItem)
  | .post post => sys.quietly { sys.pool with proactor := sys.pool.proactor.post post }
  | .spurious c => sys.quietly { sys.pool with proactor := sys.pool.proactor.postSpurious c }
  | .begin => ({ sys with firstErr := none }, [])
  | .enter => sys.quietly { sys.pool with proactor := sys.pool.proactor.submit.1 }
  | .drain => sys.through PumpCall.drainCompletions
  | .connect cfg addr opening blocking => (sys.openConn cfg addr opening blocking, [])
  | .remove h => sys.quietly (sys.pool.removeConn h).1
  | .send h what => sys.quietly (sys.pool.sendWith h what.run).1
  | .close h code reason => sys.quietly (sys.pool.initiateClose h code reason).1
  | .submit i => sys.through fun call => call.submitConnAt i
  | .dispatch pump =>
      { sys with history := sys.history ++ sys.incoming pump }.through (PumpCall.dispatchNext pump)
  | .poll i => sys.through fun call => call.pollConnAt i
  | .driveTarget =>
      match sys.driving with
      | none => (sys, [])
      | some connId => sys.quietly (sys.pool.driveTargetHandshakeEvent connId).1
  | .driveVerdict =>
      match sys.driving with
      | none => (sys, [])
      | some connId => (sys.endDrive connId, [])
  | .abandon =>
      match sys.driving with
      | none => (sys, [])
      | some connId =>
          match sys.pool.connAt connId with
          | none => ({ sys with driving := none }, [])
          | some conn =>
              ({ sys with
                  pool := (sys.pool.retireSlot connId conn.identity.generation).1,
                  driving := none }, [])

end System

/-- The machine of the pool. -/
def poolMachine [Rustls] [AcceptDigest] :
    Machine System PoolLabel (List (ConnHandle × SinkItem)) where
  initial sys :=
    ∃ cfg bundle faults, Pool.new cfg bundle faults = .ok sys.pool ∧ sys.firstErr = none ∧
      sys.driving = none ∧ sys.history = []
  step sys label := if sys.enabled label then sys.act label else (sys, [])

end Talaris
