import Talaris.Http

/-!
# The opening handshake

`encodeUpgradeRequest` writes the GET request and `verifyUpgradeResponse` decides
whether a parsed answer completes the upgrade.  SHA-1 and base64 come from crates
outside the repository and are parameters.
-/

namespace Talaris.Ws

open Talaris.Http

/-- The digest and text encoding behind `Sec-WebSocket-Accept`. -/
class AcceptDigest where
  sha1 : Bytes → Bytes
  base64 : Bytes → Text

def wsGuid : Text := "258EAFA5-E914-47DA-95CA-C5AB0DC85B11".toList

inductive HandshakeError where
  | rngFailure
  | badStatus (status : Nat)
  | missingHeader (name : Text)
  | badUpgrade
  | badConnection
  | badAccept
  | badSubprotocol (value : Text)
  | badExtension (value : Text)
  deriving DecidableEq, Repr

section

variable [AcceptDigest]

/-- Sixteen random bytes as text. -/
def encodeKey (raw : Bytes) : Text := AcceptDigest.base64 raw

/-- `base64(sha1(client_key + GUID))` -/
def computeAccept (clientKey : Text) : Text :=
  AcceptDigest.base64 (AcceptDigest.sha1 (Text.utf8 clientKey ++ Text.utf8 wsGuid))

def verifyAccept (clientKey serverAccept : Text) : Bool := computeAccept clientKey == serverAccept

end

structure UpgradeRequest where
  host : Text
  path : Text
  key : Text
  subprotocols : List Text
  origin : Option Text
  deriving DecidableEq, Repr

/-- `Vec<&str>::join(", ")` -/
def joinComma (items : List Text) : Text := (items.intersperse ", ".toList).flatten

def encodeUpgradeRequest (req : UpgradeRequest) : Bytes :=
  let headers : List (Text × Text) :=
    [("Upgrade".toList, "websocket".toList), ("Connection".toList, "Upgrade".toList),
      ("Sec-WebSocket-Key".toList, req.key), ("Sec-WebSocket-Version".toList, "13".toList)]
  let headers :=
    if req.subprotocols.isEmpty then headers
    else headers ++ [("Sec-WebSocket-Protocol".toList, joinComma req.subprotocols)]
  let headers :=
    match req.origin with
    | some origin => headers ++ [("Origin".toList, origin)]
    | none => headers
  encodeRequest "GET".toList req.path req.host headers

/-- Some value of the header lists `token`, without regard to ASCII case. -/
def hasToken (response : Http1Response) (name token : Text) : Bool :=
  (response.headerValues name).any fun value =>
    (Text.split ',' value).any fun piece => Text.eqIgnoreAsciiCase (Text.trim piece) token

/-- The checks on the server's answer, in the order of the source. -/
def verifyUpgradeResponse [AcceptDigest] (response : Http1Response) (clientKey : Text)
    (offeredSubprotocols : List Text) : Except HandshakeError Unit :=
  if response.status ≠ 101 then .error (.badStatus response.status)
  else if !hasToken response "Upgrade".toList "websocket".toList then
    if (response.header "Upgrade".toList).isNone then .error (.missingHeader "Upgrade".toList)
    else .error .badUpgrade
  else if !hasToken response "Connection".toList "Upgrade".toList then
    if (response.header "Connection".toList).isNone then
      .error (.missingHeader "Connection".toList)
    else .error .badConnection
  else
    match response.header "Sec-WebSocket-Accept".toList with
    | none => .error (.missingHeader "Sec-WebSocket-Accept".toList)
    | some accept =>
        if !verifyAccept clientKey accept then .error .badAccept
        else
          match response.header "Sec-WebSocket-Extensions".toList with
          | some ext => .error (.badExtension ext)
          | none =>
              match response.header "Sec-WebSocket-Protocol".toList with
              | none => .ok ()
              | some serverProto =>
                  let serverProto := Text.trim serverProto
                  if offeredSubprotocols.isEmpty then .error (.badSubprotocol serverProto)
                  else if !offeredSubprotocols.any fun offered =>
                      Text.eqIgnoreAsciiCase offered serverProto then
                    .error (.badSubprotocol serverProto)
                  else .ok ()

end Talaris.Ws
