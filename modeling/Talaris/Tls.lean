import Talaris.Ws.Client

/-!
# The TLS adapter

`TlsAdapter` wraps a `rustls::ClientConnection`.  The connection is a parameter: the
class `Rustls` lists what the adapter calls.  Plaintext that was decrypted and
ciphertext that waits for `write_tls` are fields here, since the adapter empties both
on every call.
-/

namespace Talaris

open Talaris.Ws

/-- `io::Error` by origin. -/
inductive IoError where
  | os (errno : Nat)
  | invalidData (message : String)
  | writeZero
  | unexpectedEof
  deriving DecidableEq, Repr

inductive TlsError where
  | invalidServerName (name : Text)
  | rustls (message : String)
  | io (error : IoError)
  | badAlpn (protocol : Bytes)
  deriving DecidableEq, Repr

/-- What a `ClientConnection` does, buffers aside. -/
class Rustls where
  Session : Type
  Config : Type
  /-- `ServerName::try_from` -/
  validServerName : Text → Bool
  /-- `ClientConnection::new`, with the bytes it wants to send first; `none` is the default
  configuration. -/
  connect : Option Config → Text → Except String (Session × Bytes)
  wantsRead : Session → Bool
  /-- `read_tls`: how many of the bytes were taken in. -/
  readTls : Session → Bytes → Session × Except IoError Nat
  /-- `process_new_packets`: plaintext chunks, bytes to send, `peer_has_closed`. -/
  processNewPackets : Session → Session × List Bytes × Bytes × Except String Bool
  /-- What the reader answers when no plaintext is left; `WouldBlock` and an empty chunk
  are `ok`. -/
  readerEnd : Session → Except IoError Unit
  /-- `writer().write`, given the bytes queued for `write_tls`: how many bytes were
  accepted and what they add to the queue. -/
  write : Session → Bytes → Bytes → Session × Nat × Bytes
  isHandshaking : Session → Bool
  alpnProtocol : Session → Option Bytes

/-- `rustls::ClientConnection` with its two buffers. -/
structure ClientConnection [Rustls] where
  session : Rustls.Session
  received : List Bytes
  sendable : Bytes

structure TlsAdapter [Rustls] where
  conn : ClientConnection
  peerClosedNotify : Bool

/-- The only protocol the client accepts. -/
def requiredAlpn : Bytes := Text.utf8 "http/1.1".toList

/-- What a call of the adapter hands over: plaintext chunks in order, ciphertext to send,
and its result. -/
structure TlsOutcome [Rustls] where
  tls : TlsAdapter
  plaintext : List Bytes
  ciphertext : Bytes
  result : Except TlsError Unit

/-- What the earlier call handed over comes first. -/
def TlsOutcome.after [Rustls] (first second : TlsOutcome) : TlsOutcome :=
  ⟨second.tls, first.plaintext ++ second.plaintext, first.ciphertext ++ second.ciphertext,
    second.result⟩

namespace TlsAdapter

variable [Rustls]

def newClientWithConfig (serverName : Text) (config : Option Rustls.Config) :
    Except TlsError TlsAdapter :=
  if !Rustls.validServerName serverName then .error (.invalidServerName serverName)
  else
    match Rustls.connect config serverName with
    | .error e => .error (.rustls e)
    | .ok (session, hello) => .ok ⟨⟨session, [], hello⟩, false⟩

def isHandshaking (tls : TlsAdapter) : Bool := Rustls.isHandshaking tls.conn.session

/-- A server that ignored the offer is fine, another protocol is not. -/
def verifyAlpn (tls : TlsAdapter) : Except TlsError Unit :=
  match Rustls.alpnProtocol tls.conn.session with
  | none => .ok ()
  | some protocol => if protocol = requiredAlpn then .ok () else .error (.badAlpn protocol)

def receivedCloseNotify (tls : TlsAdapter) : Bool := tls.peerClosedNotify

/-- Every queued byte goes to the caller's buffer; writing to a `Vec` does not fail. -/
def drainCiphertext (tls : TlsAdapter) : TlsAdapter × Bytes :=
  ({ tls with conn := { tls.conn with sendable := [] } }, tls.conn.sendable)

/-- Every decrypted chunk goes to the callback. -/
def drainPlaintext (tls : TlsAdapter) : TlsAdapter × List Bytes × Except TlsError Unit :=
  ({ tls with conn := { tls.conn with received := [] } }, tls.conn.received,
    match Rustls.readerEnd tls.conn.session with
    | .ok () => .ok ()
    | .error e => .error (.io e))

def processAndDrain (tls : TlsAdapter) : TlsOutcome :=
  match Rustls.processNewPackets tls.conn.session with
  | (session, chunks, bytes, answer) =>
      let conn : ClientConnection :=
        ⟨session, tls.conn.received ++ chunks, tls.conn.sendable ++ bytes⟩
      match answer with
      | .error e => ⟨{ tls with conn }, [], [], .error (.rustls e)⟩
      | .ok peerClosed =>
          let tls : TlsAdapter := ⟨conn, tls.peerClosedNotify || peerClosed⟩
          match tls.drainPlaintext with
          | (tls, plaintext, .error e) => ⟨tls, plaintext, [], .error e⟩
          | (tls, plaintext, .ok ()) =>
              let (tls, ciphertext) := tls.drainCiphertext
              ⟨tls, plaintext, ciphertext, .ok ()⟩

/-- The loop of `ingest_ciphertext`. -/
def ingestLoop (tls : TlsAdapter) (src : Bytes) (processed : Bool) : TlsOutcome :=
  if _empty : src = [] then
    if processed then ⟨tls, [], [], .ok ()⟩ else tls.processAndDrain
  else
    let room : TlsOutcome :=
      if Rustls.wantsRead tls.conn.session then ⟨tls, [], [], .ok ()⟩ else tls.processAndDrain
    match room.result with
    | .error _ => room
    | .ok () =>
        if !Rustls.wantsRead room.tls.conn.session then room
        else
          match Rustls.readTls room.tls.conn.session src with
          | (session, .error e) =>
              let tls := { room.tls with conn := { room.tls.conn with session } }
              room.after ⟨tls, [], [], .error (.io e)⟩
          | (session, .ok n) =>
              let tls := { room.tls with conn := { room.tls.conn with session } }
              if _none : n = 0 then
                room.after (if processed then ⟨tls, [], [], .ok ()⟩ else tls.processAndDrain)
              else
                let step := tls.processAndDrain
                match step.result with
                | .error _ => room.after step
                | .ok () => room.after (step.after (ingestLoop step.tls (src.drop n) true))
  termination_by src.length
  decreasing_by
    have nonempty := List.length_pos_of_ne_nil _empty
    simp only [List.length_drop]
    omega

/-- Ciphertext from the socket.  The callback of the source does not see the adapter, so its
calls are collected. -/
def ingestCiphertext (tls : TlsAdapter) (src : Bytes) : TlsOutcome := tls.ingestLoop src false

/-- `write_all` on the plaintext writer. -/
def writeAll (tls : TlsAdapter) (src : Bytes) : TlsAdapter × Except TlsError Unit :=
  if _empty : src = [] then (tls, .ok ())
  else
    match Rustls.write tls.conn.session tls.conn.sendable src with
    | (session, n, bytes) =>
        let tls := { tls with conn := { tls.conn with session, sendable := tls.conn.sendable ++ bytes } }
        if _none : n = 0 then (tls, .error (.io .writeZero)) else tls.writeAll (src.drop n)
  termination_by src.length
  decreasing_by
    have nonempty := List.length_pos_of_ne_nil _empty
    simp only [List.length_drop]
    omega

/-- Plaintext to the socket; the ciphertext is for the caller to send. -/
def egressPlaintext (tls : TlsAdapter) (src : Bytes) : TlsAdapter × Bytes × Except TlsError Unit :=
  match tls.writeAll src with
  | (tls, .error e) => (tls, [], .error e)
  | (tls, .ok ()) =>
      let (tls, ciphertext) := tls.drainCiphertext
      (tls, ciphertext, .ok ())

end TlsAdapter

namespace Sample

/-- A TLS layer that plain connections do not use. -/
@[reducible] def rustls : Rustls where
  Session := Unit
  Config := Unit
  validServerName _ := true
  connect _ _ := .ok ((), [])
  wantsRead _ := true
  readTls _ bytes := ((), .ok bytes.length)
  processNewPackets _ := ((), [], [], .ok false)
  readerEnd _ := .ok ()
  write _ _ bytes := ((), bytes.length, bytes)
  isHandshaking _ := false
  alpnProtocol _ := none

end Sample

end Talaris
