import Talaris.Observability
import Talaris.Proactor

/-!
# States, errors, identities and configuration of a connection
-/

namespace Talaris

open Talaris.Ws

inductive RecvMode where
  | multishot
  | multishotBundle
  deriving DecidableEq, Repr

/-- The driver's state, in the order of its life. -/
inductive State where
  | init
  | connecting
  | tlsHandshake
  | wsHandshake
  | isOpen
  | closing
  | closed
  deriving DecidableEq, Repr

/-- Place in the order of life. -/
def State.rank : State → Nat
  | init => 0
  | connecting => 1
  | tlsHandshake => 2
  | wsHandshake => 3
  | isOpen => 4
  | closing => 5
  | closed => 6

theorem State.rank_le_closed (state : State) : state.rank ≤ State.closed.rank := by
  cases state <;> decide

inductive ObservabilityError where
  | histogram (message : String)
  deriving DecidableEq, Repr

inductive ConnectionError where
  | io (error : IoError)
  | proactor (error : ProactorError)
  | bufRing (error : BufferRingError)
  | tls (error : TlsError)
  | ws (error : WsError)
  | observability (error : ObservabilityError)
  | invalidState (state : State)
  | connectFailed (error : IoError)
  | recvFailed (error : IoError)
  | sendFailed (error : IoError)
  | peerClosed
  | unknownOpKind (raw : Nat)
  | idSpaceExhausted (space : String)
  deriving DecidableEq, Repr

/-- Opt-in counters, each saturating at `u64::MAX`. -/
structure IngressStats where
  recvDataCqes : Nat := 0
  recvBytes : Nat := 0
  recvMultishotRearms : Nat := 0
  recvRingExhaustions : Nat := 0
  plainRecvBatches : Nat := 0
  plainRecvBatchCqes : Nat := 0
  plainRecvCopiedBatches : Nat := 0
  plainRecvCopiedBytes : Nat := 0
  plaintextSourceChunks : Nat := 0
  plaintextBytes : Nat := 0
  wsDataDrains : Nat := 0
  wsDataDrainSkips : Nat := 0
  wsDataEvents : Nat := 0
  wsTextEvents : Nat := 0
  wsBinaryEvents : Nat := 0
  deriving DecidableEq, Repr

/-! ## Tokens -/

def connIdMask : Nat := 0x0FFFFFFF

def connGenerationMask : Nat := 0x0FFFFFFF

def connGenerationShift : Nat := 28

def encodeConnToken (connId generation : Nat) : Nat :=
  generation <<< connGenerationShift ||| connId

def tokenConnId (token : Nat) : Nat := token &&& connIdMask

def tokenGeneration (token : Nat) : Nat := token >>> connGenerationShift &&& connGenerationMask

structure ConnectionRuntimeIdentity where
  connId : Nat
  generation : Nat
  bgid : Nat
  deriving DecidableEq, Repr

def ConnectionRuntimeIdentity.token (identity : ConnectionRuntimeIdentity) : Nat :=
  encodeConnToken identity.connId identity.generation

/-! ## Configuration -/

structure ConnectionConfig [Rustls] where
  host : Text
  port : Nat
  path : Text
  useTls : Bool := true
  tlsConfig : Option Rustls.Config := none
  wsConfig : Option WsConfig := none
  bufRingSlotSize : Nat := 4 * 1024
  bufRingEntries : Nat := 256
  recvMode : RecvMode := .multishot
  socketBusyPollUsecs : Option Nat := none
  plainRecvBatchCopyMaxBytes : Nat := 0
  trackIngressStats : Bool := false
  observabilitySampleRate : ObservabilitySampleRate := ⟨10000⟩
  recordObservabilityHistograms : Bool := false

/-- The WebSocket configuration; host and path are those of the connection. -/
def ConnectionConfig.effectiveWsConfig [Rustls] (cfg : ConnectionConfig) : WsConfig :=
  match cfg.wsConfig with
  | none => { host := cfg.host, path := cfg.path }
  | some config => { config with host := cfg.host, path := cfg.path }

end Talaris
