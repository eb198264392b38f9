import Talaris.Connection.Meta

/-!
# The connection

One connection of the pool: its socket and configuration, the bytes on their way out,
the TLS and WebSocket layers, the driver's state and the receive ring.  This module has
everything but the receive handlers: creation, the submit phase, the Connect and Send
completions and the two functions that follow the WebSocket state.
-/

namespace Talaris

open Talaris.Ws

inductive WsIngressState where
  | clean
  | dirty
  deriving DecidableEq, Repr

/-- What no step of a connection changes. -/
structure Endpoint [Rustls] where
  identity : ConnectionRuntimeIdentity
  cfg : ConnectionConfig
  socket : Nat
  addr : SocketAddr

/-- Bytes for the kernel.  `version` is not in the source: it counts the changes of
`send_buf`, so that a pointer into it is good as long as the version stands. -/
structure SendQueue where
  sendBuf : Bytes := []
  sendHead : Nat := 0
  sendInflight : Bool := false
  version : Nat := 0
  deriving DecidableEq, Repr

namespace SendQueue

/-- Every change of `send_buf` goes through here. -/
def replace (queue : SendQueue) (buf : Bytes) (head : Nat) : SendQueue :=
  { queue with sendBuf := buf, sendHead := head, version := queue.version + 1 }

def extend (queue : SendQueue) (bytes : Bytes) : SendQueue :=
  queue.replace (queue.sendBuf ++ bytes) queue.sendHead

def compactSendBufIfNeeded (queue : SendQueue) : SendQueue :=
  if queue.sendHead = 0 then queue
  else if queue.sendHead = queue.sendBuf.length then queue.replace [] 0
  else queue.replace (queue.sendBuf.drop queue.sendHead) 0

/-- A Send completion advances the head and empties the buffer once all of it is out. -/
def sent (queue : SendQueue) (n : Nat) : SendQueue :=
  if queue.sendBuf.length ≤ queue.sendHead + n then queue.replace [] 0
  else { queue with sendHead := queue.sendHead + n }

end SendQueue

/-- Recordings of the latency histograms, in order. -/
inductive HistogramRecord where
  | plaintextChunk (stamp : DataEventMeta)
  | message (stamp : DataEventMeta)
  deriving DecidableEq, Repr

/-- The receiving end: the WebSocket client and what marked events are stamped with. -/
structure Reader where
  ws : WsClient
  clock : Clock
  markedRecvSequence : Nat
  markedMessageSequence : Nat
  observabilityHistograms : Option (List HistogramRecord)

structure ConnectionState [Rustls] extends Endpoint, SendQueue, Reader where
  tls : Option TlsAdapter
  state : State
  bufRing : Option BufferRing
  plainRecvBatchScratch : Bytes
  tlsPendingOut : Bytes
  multishotArmed : Bool
  wsHandshakeBegun : Bool
  wsIngress : WsIngressState
  ingressStats : IngressStats

/-- What the system answers while a connection is built, and the clock it will read. -/
structure Opening where
  socket : Except IoError Nat
  nodelay : Except IoError Unit
  busyPoll : Except IoError Unit
  rng : SystemRandom
  histograms : Except String Unit
  clock : Clock

namespace ConnectionState

variable [Rustls]

/-- The TLS layer, when the configuration asks for one. -/
def newTls (cfg : ConnectionConfig) : Except TlsError (Option TlsAdapter) :=
  if cfg.useTls then (TlsAdapter.newClientWithConfig cfg.host cfg.tlsConfig).map some
  else .ok none

/-- A connection with no operation submitted. -/
def new [AcceptDigest] (cfg : ConnectionConfig) (identity : ConnectionRuntimeIdentity)
    (addr : SocketAddr) (opening : Opening) : Except ConnectionError ConnectionState :=
  match opening.socket with
  | .error e => .error (.io e)
  | .ok socket =>
      match opening.nodelay with
      | .error e => .error (.io e)
      | .ok () =>
          match cfg.socketBusyPollUsecs, opening.busyPoll with
          | some _, .error e => .error (.io e)
          | _, _ =>
              match newTls cfg with
              | .error e => .error (.tls e)
              | .ok tls =>
                  match WsClient.newClient cfg.effectiveWsConfig opening.rng with
                  | .error e => .error (.ws e)
                  | .ok ws =>
                      match cfg.recordObservabilityHistograms, opening.histograms with
                      | true, .error e => .error (.observability (.histogram e))
                      | record, _ =>
                          .ok
                            { identity, cfg, socket, addr, tls, ws, state := .init,
                              bufRing := none, plainRecvBatchScratch := [], tlsPendingOut := [],
                              multishotArmed := false, wsHandshakeBegun := false,
                              wsIngress := .clean, ingressStats := {}, markedRecvSequence := 0,
                              markedMessageSequence := 0,
                              observabilityHistograms := if record then some [] else none,
                              clock := opening.clock }

def token (conn : ConnectionState) : Nat := conn.identity.token

def assertOpen (conn : ConnectionState) : Except ConnectionError Unit :=
  if conn.state = .isOpen then .ok () else .error (.invalidState conn.state)

/-! ### Counters -/

/-- The counters change only where they are asked for. -/
def recordStats (conn : ConnectionState) (update : IngressStats → IngressStats) :
    ConnectionState :=
  { conn with
    ingressStats :=
      if conn.cfg.trackIngressStats then update conn.ingressStats else conn.ingressStats }

def recordRecvData (conn : ConnectionState) (bytes : Nat) : ConnectionState :=
  conn.recordStats fun stats =>
    { stats with
      recvDataCqes := saturatingAdd64 stats.recvDataCqes 1
      recvBytes := saturatingAdd64 stats.recvBytes bytes }

def recordRecvMultishotRearm (conn : ConnectionState) : ConnectionState :=
  conn.recordStats fun stats =>
    { stats with recvMultishotRearms := saturatingAdd64 stats.recvMultishotRearms 1 }

def recordRecvRingExhaustion (conn : ConnectionState) : ConnectionState :=
  conn.recordStats fun stats =>
    { stats with recvRingExhaustions := saturatingAdd64 stats.recvRingExhaustions 1 }

def recordPlainRecvBatch (conn : ConnectionState) (cqes : Nat) (copiedBytes : Option Nat) :
    ConnectionState :=
  conn.recordStats fun stats =>
    let stats :=
      { stats with
        plainRecvBatches := saturatingAdd64 stats.plainRecvBatches 1
        plainRecvBatchCqes := saturatingAdd64 stats.plainRecvBatchCqes cqes }
    match copiedBytes with
    | none => stats
    | some bytes =>
        { stats with
          plainRecvCopiedBatches := saturatingAdd64 stats.plainRecvCopiedBatches 1
          plainRecvCopiedBytes := saturatingAdd64 stats.plainRecvCopiedBytes bytes }

def recordPlaintext (conn : ConnectionState) (chunks bytes : Nat) : ConnectionState :=
  conn.recordStats fun stats =>
    { stats with
      plaintextSourceChunks := saturatingAdd64 stats.plaintextSourceChunks chunks
      plaintextBytes := saturatingAdd64 stats.plaintextBytes bytes }

def recordWsDataDrains (conn : ConnectionState) (drains skips : Nat) : ConnectionState :=
  conn.recordStats fun stats =>
    { stats with
      wsDataDrains := saturatingAdd64 stats.wsDataDrains drains
      wsDataDrainSkips := saturatingAdd64 stats.wsDataDrainSkips skips }

def recordWsDataEvents (conn : ConnectionState) (textEvents binaryEvents : Nat) :
    ConnectionState :=
  conn.recordStats fun stats =>
    { stats with
      wsTextEvents := saturatingAdd64 stats.wsTextEvents textEvents
      wsBinaryEvents := saturatingAdd64 stats.wsBinaryEvents binaryEvents
      wsDataEvents :=
        saturatingAdd64 stats.wsDataEvents (saturatingAdd64 textEvents binaryEvents) }

/-! ### The submit phase -/

/-- Before the socket is connected and after the connection has closed nothing is
submitted. -/
def quiet (conn : ConnectionState) : Bool :=
  conn.state = .init || conn.state = .connecting || conn.state = .closed

def submitConnect (conn : ConnectionState) (proactor : Proactor) :
    ConnectionState × Proactor × Except ConnectionError Unit :=
  match proactor.push (.connect conn.socket conn.addr (UserData.new .connect conn.token)) with
  | (proactor, .error e) => (conn, proactor, .error (.proactor e))
  | (proactor, .ok ()) => ({ conn with state := .connecting }, proactor, .ok ())

def extendSend (conn : ConnectionState) (bytes : Bytes) : ConnectionState :=
  { conn with toSendQueue := conn.toSendQueue.extend bytes }

/-- Room in front of the bytes still to be sent is given up first. -/
def compactSend (conn : ConnectionState) : ConnectionState :=
  { conn with toSendQueue := conn.toSendQueue.compactSendBufIfNeeded }

/-- Ciphertext that waited for the last send to finish. -/
def mergeTlsPendingOut (conn : ConnectionState) : ConnectionState :=
  if conn.tlsPendingOut.isEmpty then conn
  else { conn.extendSend conn.tlsPendingOut with tlsPendingOut := [] }

/-- The pending bytes of the WebSocket client leave it as `bytes`. -/
def stageWs (conn : ConnectionState) (bytes : Bytes) : ConnectionState :=
  if conn.ws.pendingTx.isEmpty then conn
  else { conn.extendSend bytes with ws := conn.ws.ackTx conn.ws.pendingTx.length }

/-- The pending bytes are encrypted, then rustls adds what it wants to send on its own. -/
def stageTls (conn : ConnectionState) (tls : TlsAdapter) :
    ConnectionState × Except ConnectionError Unit :=
  match if conn.ws.pendingTx.isEmpty then (tls, [], .ok ())
      else tls.egressPlaintext conn.ws.pendingTx with
  | (tls, _, .error e) => ({ conn with tls := some tls }, .error (.tls e))
  | (tls, ciphertext, .ok ()) =>
      let conn := conn.stageWs ciphertext
      match tls.egressPlaintext [] with
      | (tls, _, .error e) => ({ conn with tls := some tls }, .error (.tls e))
      | (tls, ciphertext, .ok ()) => ({ conn.extendSend ciphertext with tls := some tls }, .ok ())

/-- Everything there is to send, in the order it was produced. -/
def stageSend (conn : ConnectionState) : ConnectionState × Except ConnectionError Unit :=
  let conn := conn.compactSend.mergeTlsPendingOut
  match conn.tls with
  | none => (conn.stageWs conn.ws.pendingTx, .ok ())
  | some tls => conn.stageTls tls

/-- The send of everything staged; its length is a `u32`. -/
def sendSqe (conn : ConnectionState) : Sqe :=
  .send conn.socket conn.version conn.sendHead
    ((conn.sendBuf.drop conn.sendHead).take (2 ^ 32 - 1)) (UserData.new .send conn.token)

def trySubmitSend (conn : ConnectionState) (proactor : Proactor) :
    ConnectionState × Proactor × Except ConnectionError Unit :=
  if conn.sendInflight ∨ conn.quiet then (conn, proactor, .ok ())
  else
    match conn.stageSend with
    | (conn, .error e) => (conn, proactor, .error e)
    | (conn, .ok ()) =>
        if conn.sendBuf.length - conn.sendHead = 0 then (conn, proactor, .ok ())
        else
          match proactor.push conn.sendSqe with
          | (proactor, .error e) => (conn, proactor, .error (.proactor e))
          | (proactor, .ok ()) => ({ conn with sendInflight := true }, proactor, .ok ())

def recvSqe (conn : ConnectionState) (bgid : Nat) : Sqe :=
  .recv conn.socket bgid (conn.cfg.recvMode = .multishotBundle) (UserData.new .recv conn.token)

def submitRecvForMode (conn : ConnectionState) (proactor : Proactor) (bgid : Nat) :
    Proactor × Except ConnectionError Unit :=
  if conn.cfg.recvMode = .multishotBundle ∧ !proactor.supportsRecvsendBundle then
    (proactor,
      .error (.proactor (.invalidConfig "kernel does not support IORING_RECVSEND_BUNDLE")))
  else
    match proactor.push (conn.recvSqe bgid) with
    | (proactor, .error e) => (proactor, .error (.proactor e))
    | (proactor, .ok ()) => (proactor, .ok ())

def tryRearmMultishot (conn : ConnectionState) (proactor : Proactor) :
    ConnectionState × Proactor × Except ConnectionError Unit :=
  if conn.multishotArmed ∨ conn.quiet then (conn, proactor, .ok ())
  else
    match conn.bufRing with
    | none => (conn, proactor, .ok ())
    | some ring =>
        match conn.submitRecvForMode proactor ring.bgid with
        | (proactor, .error e) => (conn, proactor, .error e)
        | (proactor, .ok ()) =>
            ({ conn with multishotArmed := true }.recordRecvMultishotRearm, proactor, .ok ())

/-! ### Connect and Send completions -/

/-- Queue the upgrade request once. -/
def beginWsHandshake (conn : ConnectionState) : ConnectionState × Except ConnectionError Unit :=
  match conn.ws.beginHandshake with
  | (ws, .error e) => ({ conn with ws }, .error (.ws e))
  | (ws, .ok ()) => ({ conn with ws, wsHandshakeBegun := true }, .ok ())

/-- The state after the TCP connection stands. -/
def connectedState (conn : ConnectionState) : State :=
  if conn.tls.isSome then .tlsHandshake else .wsHandshake

/-- The socket is connected: register the receive ring, arm the receive and start the next
handshake. -/
def onConnectCqe (conn : ConnectionState) (proactor : Proactor) (c : Completion) :
    ConnectionState × Proactor × Except ConnectionError Unit :=
  match c.toResult with
  | .error e => (conn, proactor, .error (.connectFailed e))
  | .ok _ =>
      match BufferRing.new proactor conn.identity.bgid conn.cfg.bufRingEntries
          conn.cfg.bufRingSlotSize with
      | (proactor, .error e) => (conn, proactor, .error (.bufRing e))
      | (proactor, .ok ring) =>
          match conn.submitRecvForMode proactor ring.bgid with
          | (proactor, .error e) =>
              -- a failed unregister is only logged
              ((conn, (ring.unregister proactor).1, .error e))
          | (proactor, .ok ()) =>
              let conn :=
                { conn with bufRing := some ring, multishotArmed := true }.recordRecvMultishotRearm
              let conn := { conn with state := conn.connectedState }
              if conn.tls.isNone ∧ !conn.wsHandshakeBegun then
                let (conn, begun) := conn.beginWsHandshake
                (conn, proactor, begun)
              else (conn, proactor, .ok ())

def onSendCqe (conn : ConnectionState) (c : Completion) :
    ConnectionState × Except ConnectionError Unit :=
  let conn := { conn with sendInflight := false }
  match c.toResult with
  | .error e => (conn, .error (.sendFailed e))
  | .ok n => ({ conn with toSendQueue := conn.toSendQueue.sent n }, .ok ())

/-! ### Following the WebSocket state -/

def clearWsIngressDirty (conn : ConnectionState) : ConnectionState :=
  { conn with wsIngress := .clean }

/-- A closed WebSocket puts the driver into `Closing`. -/
def syncWsCloseState (conn : ConnectionState) : ConnectionState :=
  if conn.ws.state = .closed ∧ conn.state ≠ .closing ∧ conn.state ≠ .closed then
    { conn with state := .closing }
  else conn

/-- An open WebSocket puts the driver into `Open`, whatever state it is in. -/
def syncWsOpenState (conn : ConnectionState) : ConnectionState :=
  if conn.ws.state = .isOpen ∧ conn.state ≠ .isOpen then { conn with state := .isOpen }
  else conn

end ConnectionState

end Talaris
