import Talaris.Ws.Frame

/-!
# Close codes and close payloads

An empty payload stands for "no status"; otherwise two bytes of code and a UTF-8
reason.
-/

namespace Talaris.Ws

inductive CloseCode where
  | normal
  | goingAway
  | protocolError
  | unsupportedData
  | invalidPayload
  | policyViolation
  | messageTooBig
  | mandatoryExt
  | internalError
  deriving DecidableEq, Repr

def CloseCode.asU16 : CloseCode → Nat
  | normal => 1000
  | goingAway => 1001
  | protocolError => 1002
  | unsupportedData => 1003
  | invalidPayload => 1007
  | policyViolation => 1008
  | messageTooBig => 1009
  | mandatoryExt => 1010
  | internalError => 1011

inductive CloseError where
  | oneByte
  | invalidUtf8
  | invalidCode (code : Nat)
  deriving DecidableEq, Repr

/-- Codes an endpoint may put in a Close frame. -/
def isValidEndpointSent (code : Nat) : Bool :=
  (1000 ≤ code && code ≤ 1003) || (1007 ≤ code && code ≤ 1011) || (3000 ≤ code && code ≤ 4999)

/-- Codes accepted from the peer. -/
def isValidReceived (code : Nat) : Bool :=
  (1000 ≤ code && code ≤ 1003) || (1007 ≤ code && code ≤ 1011) || (3000 ≤ code && code ≤ 4999)

/-- Code and reason of a received Close frame; `none` when it carries neither. -/
def parseClosePayload : Bytes → Except CloseError (Option (Nat × Bytes))
  | [] => .ok none
  | [_] => .error .oneByte
  | c0 :: c1 :: reason =>
      let code := beNat [c0, c1]
      if !isValidReceived code then .error (.invalidCode code)
      else if !Utf8.valid reason then .error .invalidUtf8
      else .ok (some (code, reason))

/-- The payload of a Close frame with a code. -/
def encodeClosePayload (code : Nat) (reason : Bytes) : Bytes := toBe 2 code ++ reason

end Talaris.Ws
