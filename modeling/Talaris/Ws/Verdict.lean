import Talaris.Ws.Drain

/-!
# Verdicts on whole frames

The client spreads an unfinished frame over several buffers and reads frames by three
different paths.  This module says what the bytes at a frame boundary amount to,
whatever path reads them.  `Core.judge` is the verdict RFC 6455 prescribes;
`Core.step` refines it by a `Fault`, the rule that says how early a path reports a
malformed header.
-/

namespace Talaris.Ws

open Talaris.Http

inductive DataKind where
  | text
  | binary
  deriving DecidableEq, Repr

namespace DataKind

def toOpCode : DataKind → OpCode
  | text => .text
  | binary => .binary

def event : DataKind → Bytes → Event
  | text, payload => .text payload
  | binary, payload => .binary payload

end DataKind

/-- The message a data opcode begins; a continuation begins none. -/
def OpCode.dataKind? : OpCode → Option DataKind
  | text => some .text
  | binary => some .binary
  | continuation | close | ping | pong => none

/-- The client between two frames. -/
structure Core where
  state : ConnState
  /-- Kind and bytes of the message whose fragments are coming in. -/
  message : Option (DataKind × Bytes)
  outbound : List OutFrame
  deriving DecidableEq, Repr

namespace Core

def write (c : Core) (opcode : OpCode) (payload : Bytes) : Core :=
  { c with outbound := c.outbound ++ [⟨true, opcode, payload⟩] }

def queueClose (c : Core) (code : Nat) (reason : String) : Core :=
  if c.state = .closing ∨ c.state = .closed then c
  else
    let c := c.write .close (encodeClosePayload code (Text.utf8 reason.toList))
    if c.state = .isOpen then { c with state := .closing } else c

end Core

/-- What the bytes at a frame boundary amount to. -/
inductive Verdict where
  | needMore
  | violation
  | frame (next : Core) (size : Nat) (event : Option Event)
  | fail (next : Core) (error : WsError)

section Frames

variable (config : WsConfig)

/-- A complete control frame. -/
def Core.control (c : Core) (opcode : OpCode) (payload : Bytes) (size : Nat) : Verdict :=
  match opcode with
  | .ping =>
      .frame (if config.autoPong then c.write .pong payload else c) size (some (.ping payload))
  | .close =>
      match parseClosePayload payload with
      | .error e =>
          .fail { c.queueClose CloseCode.protocolError.asU16 "bad close payload" with
            state := .closing } (.close e)
      | .ok none =>
          let c := if c.state = .isOpen then c.queueClose CloseCode.normal.asU16 "" else c
          .frame { c with state := .closed } size (some (.close 1005 []))
      | .ok (some (code, reason)) =>
          let c := if c.state = .isOpen then c.queueClose code "" else c
          .frame { c with state := .closed } size (some (.close code reason))
  | .pong | .continuation | .text | .binary => .frame c size (some (.pong payload))

/-- A data frame that continues the bytes `acc` of a message. -/
def Core.data (c : Core) (kind : DataKind) (acc : Bytes) (h : FrameHeader) (headerLen : Nat)
    (r : Bytes) : Verdict :=
  if saturatingAdd64 acc.length h.payloadLen > config.maxMessageSize then
    .fail (c.queueClose CloseCode.messageTooBig.asU16 "message exceeds max_message_size")
      .messageTooLarge
  else if r.length < headerLen + h.payloadLen then .needMore
  else
    let payload := acc ++ (r.take (headerLen + h.payloadLen)).drop headerLen
    if !h.fin then
      .frame { c with message := some (kind, payload) } (headerLen + h.payloadLen) none
    else if kind = .text ∧ !WsClient.textAllowed config payload then
      .fail (c.queueClose CloseCode.invalidPayload.asU16 "invalid utf-8") .utf8Invalid
    else
      .frame { c with message := none } (headerLen + h.payloadLen) (some (kind.event payload))

/-- A frame whose header is complete and sound. -/
def Core.body (c : Core) (h : FrameHeader) (headerLen : Nat) (r : Bytes) : Verdict :=
  if config.maxFramePayload < h.payloadLen then
    .fail (c.queueClose CloseCode.messageTooBig.asU16 "frame too large") .messageTooLarge
  else if h.opcode.isControl then
    if r.length < headerLen + h.payloadLen then .needMore
    else
      c.control config h.opcode ((r.take (headerLen + h.payloadLen)).drop headerLen)
        (headerLen + h.payloadLen)
  else
    match h.opcode.dataKind?, c.message with
    | none, none =>
        .fail (c.queueClose CloseCode.protocolError.asU16 "continuation without start")
          (.protocol "continuation without start")
    | none, some (kind, acc) => c.data config kind acc h headerLen r
    | some _, some _ =>
        .fail (c.queueClose CloseCode.protocolError.asU16 "new data frame mid-fragmentation")
          (.protocol "nested data frame")
    | some kind, none => c.data config kind [] h headerLen r

/-- The upgrade response. -/
def Core.handshake [AcceptDigest] (c : Core) (clientKey : Text) (r : Bytes) : Verdict :=
  match parseResponse r with
  | .error e => .fail { c with state := .closed } (.http e)
  | .ok none => .needMore
  | .ok (some (response, bodyStart)) =>
      match verifyUpgradeResponse response clientKey config.subprotocols with
      | .error e => .fail { c with state := .closed } (.handshake e)
      | .ok () => .frame { c with state := .isOpen } bodyStart (some .handshakeComplete)

end Frames

/-! ## Malformed headers -/

/-- Two bytes are there, and they and what follows cannot become the header of a server frame. -/
def BadHeader (r : Bytes) : Bool :=
  match r with
  | _ :: b1 :: _ =>
      (match parseHeader r with
        | .error _ => true
        | .ok _ => false) || b1 &&& 0x80 != 0
  | _ => false

/-- Rule that reports a malformed header, with the reason text of the Close frame. -/
abbrev Fault := Bytes → Option (FrameError × String)

/-- The streaming parser: not before the whole header is there. -/
def streamFault : Fault := fun r =>
  if HeaderComplete r then
    match parseHeader r with
    | .error e => some (e, "frame parse error")
    | .ok (some (h, _)) =>
        if h.mask.isSome then some (.serverSentMaskedFrame, "frame parse error") else none
    | .ok none => none
  else none

/-- `tryEmitBorrowedData`: as soon as `parseHeader` sees it. -/
def borrowedFault : Fault := fun r =>
  match parseHeader r with
  | .error e => some (e, "frame parse error")
  | .ok (some (h, _)) =>
      if h.mask.isSome then some (.serverSentMaskedFrame, "server sent masked frame") else none
  | .ok none => none

/-- The direct data path: its own header parser first. -/
def fastFault : Fault := fun r =>
  match parseServerDataHeaderFast r with
  | .error e => some (e, "frame parse error")
  | .ok _ => borrowedFault r

/-! ### Facts about malformed headers -/

theorem badHeader_of_error {r : Bytes} {e : FrameError} (parsed : parseHeader r = .error e) :
    BadHeader r = true := by
  match r with
  | [] => cases parsed
  | [_] => cases parsed
  | _ :: _ :: _ => simp [BadHeader, parsed]

theorem badHeader_of_some {r : Bytes} {h : FrameHeader} {size : Nat}
    (parsed : parseHeader r = .ok (some (h, size))) : BadHeader r = h.mask.isSome := by
  match r with
  | [] => cases parsed
  | [_] => cases parsed
  | b0 :: b1 :: rest =>
      obtain ⟨-, -, -, -, masked, -⟩ := parseHeader_some_size parsed
      simp [BadHeader, parsed, masked]

theorem badHeader_append {r : Bytes} (bad : BadHeader r = true) (more : Bytes) :
    BadHeader (r ++ more) = true := by
  match r with
  | [] => cases bad
  | [_] => cases bad
  | b0 :: b1 :: rest =>
      cases parsed : parseHeader (b0 :: b1 :: rest) with
      | error e =>
          have settled : parseHeader (b0 :: b1 :: rest) ≠ .ok none := by simp [parsed]
          exact badHeader_of_error (parseHeader_append settled more ▸ parsed)
      | ok found =>
          simp only [BadHeader, parsed, Bool.false_or] at bad
          simp [BadHeader, bad]

/-- A complete header is malformed or parses without a mask. -/
theorem parseHeader_of_complete {r : Bytes} (complete : HeaderComplete r)
    (good : BadHeader r = false) :
    ∃ h, parseHeader r = .ok (some (h, minNeeded r)) ∧ h.mask = none := by
  cases parsed : parseHeader r with
  | error e =>
      rw [badHeader_of_error parsed] at good
      cases good
  | ok found =>
      cases found with
      | none => exact absurd parsed (parseHeader_ne_none complete)
      | some found =>
          obtain ⟨h, size⟩ := found
          rw [badHeader_of_some parsed] at good
          obtain ⟨rfl, -⟩ := parseHeader_some_minNeeded parsed
          exact ⟨h, rfl, by simpa using good⟩

theorem headerComplete_of_some {r : Bytes} {h : FrameHeader} {size : Nat}
    (parsed : parseHeader r = .ok (some (h, size))) : HeaderComplete r := by
  obtain ⟨rfl, bound⟩ := parseHeader_some_minNeeded parsed
  exact bound

/-- What a rule may do: report malformed headers only, report every complete one, and stand by
its report. -/
structure Fault.Lawful (fault : Fault) : Prop where
  malformed : ∀ {r x}, fault r = some x → BadHeader r = true
  reports : ∀ {r}, HeaderComplete r → BadHeader r = true → (fault r).isSome
  stable : ∀ {r x}, fault r = some x → ∀ more, fault (r ++ more) = some x

theorem streamFault_lawful : streamFault.Lawful where
  malformed {r x} reported := by
    unfold streamFault at reported
    split at reported
    next =>
      split at reported
      next parsed => exact badHeader_of_error parsed
      next h _ parsed =>
        split at reported
        next masked => rw [badHeader_of_some parsed, masked]
        next => cases reported
      next => cases reported
    next => cases reported
  reports {r} complete bad := by
    unfold streamFault
    rw [if_pos complete]
    cases parsed : parseHeader r with
    | error e => rfl
    | ok found =>
        cases found with
        | none => exact absurd parsed (parseHeader_ne_none complete)
        | some found => simpa [badHeader_of_some parsed] using bad
  stable {r x} reported more := by
    unfold streamFault at reported ⊢
    split at reported
    next complete =>
      rw [if_pos (complete.append more), parseHeader_append (parseHeader_ne_none complete)]
      exact reported
    next => cases reported

theorem borrowedFault_lawful : borrowedFault.Lawful where
  malformed {r x} reported := by
    unfold borrowedFault at reported
    split at reported
    next parsed => exact badHeader_of_error parsed
    next h _ parsed =>
      split at reported
      next masked => rw [badHeader_of_some parsed, masked]
      next => cases reported
    next => cases reported
  reports {r} complete bad := by
    unfold borrowedFault
    cases parsed : parseHeader r with
    | error e => rfl
    | ok found =>
        cases found with
        | none => exact absurd parsed (parseHeader_ne_none complete)
        | some found => simpa [badHeader_of_some parsed] using bad
  stable {r x} reported more := by
    have settled : parseHeader r ≠ .ok none := by
      intro short
      simp [borrowedFault, short] at reported
    unfold borrowedFault at reported ⊢
    rw [parseHeader_append settled]
    exact reported

/-! ### The header parser of the direct path -/

theorem parseServerDataHeaderFast_append {r : Bytes}
    (settled : parseServerDataHeaderFast r ≠ .ok .needMore) (more : Bytes) :
    parseServerDataHeaderFast (r ++ more) = parseServerDataHeaderFast r := by
  match r with
  | [] => exact absurd rfl settled
  | [_] => exact absurd rfl settled
  | b0 :: b1 :: rest =>
      simp only [parseServerDataHeaderFast, List.cons_append] at settled ⊢
      split
      next => rfl
      next rsv =>
        rw [if_neg rsv] at settled
        split
        next => rfl
        next mask =>
          rw [if_neg mask] at settled
          split
          next => rfl
          next fin =>
            rw [if_neg fin] at settled
            split
            next data =>
              rw [if_pos data] at settled
              split
              next => rfl
              next small =>
                rw [if_neg small] at settled
                split
                next sixteen =>
                  rw [if_pos sixteen] at settled
                  split at settled
                  next => exact absurd rfl settled
                  next enough =>
                    have long : ¬ (rest ++ more).length < 2 := by
                      simp only [List.length_append]
                      omega
                    rw [if_neg long, if_neg enough, List.take_append_of_le_length (by omega)]
                next => rfl
            next => rfl

/-- What the direct header parser accepts is what `parseHeader` accepts. -/
theorem parseServerDataHeaderFast_parsed {r : Bytes} {header : FastDataHeader}
    (fast : parseServerDataHeaderFast r = .ok (.parsed header)) :
    parseHeader r = .ok (some (⟨true, header.opcode, none, header.payloadLen⟩, header.headerLen)) ∧
      (header.opcode = .text ∨ header.opcode = .binary) := by
  match r with
  | [] => cases fast
  | [_] => cases fast
  | b0 :: b1 :: rest =>
      simp only [parseServerDataHeaderFast] at fast
      split at fast
      next => cases fast
      next rsv =>
        split at fast
        next => cases fast
        next mask =>
          split at fast
          next => cases fast
          next fin =>
            split at fast
            next data =>
              obtain ⟨opcode, named, opcodeEq, kinds⟩ :
                  ∃ opcode, (if b0 &&& 0x0F == 0x1 then OpCode.text else .binary) = opcode ∧
                    OpCode.tryFrom (b0 &&& 0x0F) = .ok opcode ∧
                    (opcode = .text ∨ opcode = .binary) := by
                simp only [Bool.or_eq_true, beq_iff_eq] at data
                obtain is1 | is2 := data
                · exact ⟨.text, by simp [OpCode.tryFrom, is1]⟩
                · exact ⟨.binary, by simp [OpCode.tryFrom, is2]⟩
              have notControl : opcode.isControl = false := by
                obtain rfl | rfl := kinds <;> rfl
              rw [named] at fast
              have finSet : (b0 &&& 0x80 != 0) = true := by simpa using fin
              have unmasked : (b1 &&& 0x80 != 0) = false := by simpa using mask
              split at fast
              next small =>
                simp only [Except.ok.injEq, FastDataHeaderResult.parsed.injEq] at fast
                subst fast
                refine ⟨?_, kinds⟩
                simp [parseHeader, rsv, opcodeEq, payloadLenField, small, notControl, finSet,
                  unmasked, maskFieldSize]
              next large =>
                split at fast
                next sixteen =>
                  split at fast
                  next => cases fast
                  next enough =>
                    split at fast
                    next => cases fast
                    next minimal =>
                      simp only [Except.ok.injEq, FastDataHeaderResult.parsed.injEq] at fast
                      subst fast
                      refine ⟨?_, kinds⟩
                      have long : ¬ rest.length + 2 < 4 := by omega
                      simp [parseHeader, rsv, opcodeEq, payloadLenField, large, sixteen, enough,
                        minimal, notControl, finSet, unmasked, maskFieldSize, long]
                next => cases fast
            next =>
              split at fast <;> cases fast

theorem parseServerDataHeaderFast_needMore {r : Bytes}
    (fast : parseServerDataHeaderFast r = .ok .needMore) : parseHeader r = .ok none := by
  match r with
  | [] => rfl
  | [_] => rfl
  | b0 :: b1 :: rest =>
      simp only [parseServerDataHeaderFast] at fast
      split at fast
      next => cases fast
      next rsv =>
        split at fast
        next => cases fast
        next mask =>
          split at fast
          next => cases fast
          next fin =>
            split at fast
            next data =>
              split at fast
              next => cases fast
              next large =>
                split at fast
                next sixteen =>
                  split at fast
                  next short =>
                    simp only [Bool.or_eq_true, beq_iff_eq] at data
                    obtain is1 | is2 := data
                    · simp [parseHeader, rsv, OpCode.tryFrom, is1, payloadLenField, large,
                        sixteen, short]
                    · simp [parseHeader, rsv, OpCode.tryFrom, is2, payloadLenField, large,
                        sixteen, short]
                  next => split at fast <;> cases fast
                next => cases fast
            next => split at fast <;> cases fast

theorem parseServerDataHeaderFast_error {r : Bytes} {e : FrameError}
    (fast : parseServerDataHeaderFast r = .error e) : BadHeader r = true := by
  match r with
  | [] => cases fast
  | [_] => cases fast
  | b0 :: b1 :: rest =>
      simp only [parseServerDataHeaderFast] at fast
      split at fast
      next rsv =>
        have refused : parseHeader (b0 :: b1 :: rest) = .error .rsvBitsSet := by
          simp only [parseHeader, if_pos rsv]
        exact badHeader_of_error refused
      next rsv =>
        split at fast
        next mask => simp [BadHeader, mask]
        next mask =>
          split at fast
          next => cases fast
          next fin =>
            split at fast
            next data =>
              split at fast
              next => cases fast
              next large =>
                split at fast
                next sixteen =>
                  split at fast
                  next => cases fast
                  next enough =>
                    split at fast
                    next minimal =>
                      have refused : parseHeader (b0 :: b1 :: rest) =
                          .error .nonMinimalPayloadLength := by
                        simp only [Bool.or_eq_true, beq_iff_eq] at data
                        obtain is1 | is2 := data
                        · simp [parseHeader, rsv, OpCode.tryFrom, is1, payloadLenField, large,
                            sixteen, enough, minimal]
                        · simp [parseHeader, rsv, OpCode.tryFrom, is2, payloadLenField, large,
                            sixteen, enough, minimal]
                      exact badHeader_of_error refused
                    next => cases fast
                next => cases fast
            next data =>
              split at fast
              next => cases fast
              next other =>
                simp only [Bool.or_eq_true, beq_iff_eq, not_or] at data other
                have refused : parseHeader (b0 :: b1 :: rest) =
                    .error (.invalidOpCode (b0 &&& 0x0F)) := by
                  simp [parseHeader, rsv, OpCode.tryFrom, data, other]
                exact badHeader_of_error refused

theorem fastFault_lawful : fastFault.Lawful where
  malformed {r x} reported := by
    unfold fastFault at reported
    split at reported
    next e fast => exact parseServerDataHeaderFast_error fast
    next => exact borrowedFault_lawful.malformed reported
  reports {r} complete bad := by
    unfold fastFault
    split
    next => rfl
    next => exact borrowedFault_lawful.reports complete bad
  stable {r x} reported more := by
    have settled : parseServerDataHeaderFast r ≠ .ok .needMore := by
      intro short
      simp [fastFault, short, borrowedFault, parseServerDataHeaderFast_needMore short] at reported
    unfold fastFault at reported ⊢
    rw [parseServerDataHeaderFast_append settled]
    split at reported
    next e fast => exact reported
    next found fast => exact borrowedFault_lawful.stable reported more

/-- Whether the path with the early rule reads the next frame. -/
inductive Mode where
  | idle
  | streaming
  deriving DecidableEq, Repr

/-- The early rule applies to an idle parser of an open client outside a message. -/
def activeFault (fault : Fault) (mode : Mode) (c : Core) : Fault :=
  if mode = .idle ∧ c.state = .isOpen ∧ c.message = none then fault else streamFault

theorem activeFault_lawful {fault : Fault} (lawful : fault.Lawful) (mode : Mode) (c : Core) :
    (activeFault fault mode c).Lawful := by
  unfold activeFault
  split
  next => exact lawful
  next => exact streamFault_lawful

/-! ## Sound frames -/

section Sound

variable (config : WsConfig)

/-- The verdict on a frame whose header is not malformed. -/
def Core.sound (c : Core) (r : Bytes) : Verdict :=
  match parseHeader r with
  | .ok (some (h, headerLen)) => c.body config h headerLen r
  | _ => .needMore

theorem Core.sound_ne_violation (c : Core) (r : Bytes) : c.sound config r ≠ .violation := by
  unfold sound body control data
  dsimp only
  repeat' split
  all_goals simp

theorem Core.control_frame_size {c next : Core} {opcode : OpCode} {payload : Bytes}
    {total size : Nat} {event : Option Event}
    (framed : c.control config opcode payload total = .frame next size event) : size = total := by
  unfold control at framed
  repeat' split at framed
  all_goals simp only [reduceCtorEq, Verdict.frame.injEq] at framed
  all_goals exact framed.2.1.symm

theorem Core.data_frame_size {c next : Core} {kind : DataKind} {acc r : Bytes}
    {h : FrameHeader} {headerLen size : Nat} {event : Option Event}
    (framed : c.data config kind acc h headerLen r = .frame next size event) :
    size = headerLen + h.payloadLen ∧ size ≤ r.length := by
  unfold data at framed
  dsimp only at framed
  repeat' split at framed
  all_goals simp only [reduceCtorEq, Verdict.frame.injEq] at framed
  all_goals omega

theorem Core.body_frame_size {c next : Core} {h : FrameHeader} {headerLen size : Nat} {r : Bytes}
    {event : Option Event} (framed : c.body config h headerLen r = .frame next size event) :
    size = headerLen + h.payloadLen ∧ size ≤ r.length := by
  unfold body at framed
  split at framed
  next => cases framed
  next =>
    split at framed
    next =>
      split at framed
      next => cases framed
      next =>
        have := control_frame_size config framed
        omega
    next =>
      split at framed
      next => cases framed
      next => exact data_frame_size config framed
      next => cases framed
      next => exact data_frame_size config framed

theorem Core.sound_frame_size {c next : Core} {size : Nat} {r : Bytes} {event : Option Event}
    (framed : c.sound config r = .frame next size event) : 2 ≤ size ∧ size ≤ r.length := by
  unfold sound at framed
  split at framed
  next h headerLen parsed =>
    obtain ⟨rfl, -⟩ := parseHeader_some_minNeeded parsed
    have := minNeeded_ge r
    have := body_frame_size config framed
    omega
  next => cases framed

theorem Core.data_append {c : Core} {kind : DataKind} {acc r : Bytes} {h : FrameHeader}
    {headerLen : Nat} (settled : c.data config kind acc h headerLen r ≠ .needMore)
    (more : Bytes) :
    c.data config kind acc h headerLen (r ++ more) = c.data config kind acc h headerLen r := by
  unfold data at settled ⊢
  split
  next => rfl
  next fits =>
    rw [if_neg fits] at settled
    split at settled
    next => exact absurd rfl settled
    next enough =>
      have long : ¬ (r ++ more).length < headerLen + h.payloadLen := by
        simp only [List.length_append]
        omega
      rw [if_neg long, if_neg enough, List.take_append_of_le_length (by omega)]

theorem Core.body_append {c : Core} {h : FrameHeader} {headerLen : Nat} {r : Bytes}
    (settled : c.body config h headerLen r ≠ .needMore) (more : Bytes) :
    c.body config h headerLen (r ++ more) = c.body config h headerLen r := by
  unfold body at settled ⊢
  split
  next => rfl
  next allowed =>
    rw [if_neg allowed] at settled
    split
    next control =>
      rw [if_pos control] at settled
      split at settled
      next => exact absurd rfl settled
      next enough =>
        have long : ¬ (r ++ more).length < headerLen + h.payloadLen := by
          simp only [List.length_append]
          omega
        rw [if_neg long, if_neg enough, List.take_append_of_le_length (by omega)]
    next dataFrame =>
      rw [if_neg dataFrame] at settled
      split
      next => rfl
      next kind acc starts held =>
        simp only [starts, held] at settled
        exact data_append config settled more
      next => rfl
      next kind starts held =>
        simp only [starts, held] at settled
        exact data_append config settled more

theorem Core.sound_append {c : Core} {r : Bytes} (settled : c.sound config r ≠ .needMore)
    (more : Bytes) : c.sound config (r ++ more) = c.sound config r := by
  unfold sound at settled ⊢
  cases parsed : parseHeader r with
  | error e => simp [parsed] at settled
  | ok found =>
      cases found with
      | none => simp [parsed] at settled
      | some found =>
          have decided : parseHeader r ≠ .ok none := by simp [parsed]
          rw [parsed] at settled
          rw [parseHeader_append decided, parsed]
          exact body_append config settled more

/-- A sound verdict needs the whole header, so more bytes do not make it malformed. -/
theorem badHeader_of_sound {c : Core} {r : Bytes} (settled : c.sound config r ≠ .needMore)
    (more : Bytes) : BadHeader (r ++ more) = BadHeader r := by
  unfold Core.sound at settled
  split at settled
  next h headerLen parsed =>
    have decided : parseHeader r ≠ .ok none := by simp [parsed]
    have extended := parseHeader_append decided more
    rw [badHeader_of_some parsed, badHeader_of_some (extended.trans parsed)]
  next => exact absurd rfl settled

end Sound

/-! ## Streams -/

section Streams

variable [AcceptDigest] (config : WsConfig) (clientKey : Text)

/-- The verdict that does not depend on a path. -/
def Core.judge (c : Core) (r : Bytes) : Verdict :=
  match c.state with
  | .closed => .needMore
  | .connecting => c.handshake config clientKey r
  | .isOpen | .closing => if BadHeader r then .violation else c.sound config r

/-- The verdict of a path with an early rule. -/
def Core.step (c : Core) (fault : Fault) (mode : Mode) (r : Bytes) : Verdict :=
  match c.state with
  | .closed => .needMore
  | .connecting => c.handshake config clientKey r
  | .isOpen | .closing =>
      match activeFault fault mode c r with
      | some (e, reason) =>
          .fail (c.queueClose CloseCode.protocolError.asU16 reason) (.frame e)
      | none => if BadHeader r then .needMore else c.sound config r

theorem Core.handshake_ne_violation (c : Core) (r : Bytes) :
    c.handshake config clientKey r ≠ .violation := by
  unfold handshake
  split
  next => simp
  next => simp
  next => split <;> simp

theorem Core.step_ne_violation (c : Core) (fault : Fault) (mode : Mode) (r : Bytes) :
    c.step config clientKey fault mode r ≠ .violation := by
  unfold step
  split
  next => simp
  next => exact handshake_ne_violation config clientKey c r
  all_goals
    split
    next => simp
    next =>
      split
      next => simp
      next => exact c.sound_ne_violation config r

/-! ### Sizes and stability of verdicts -/

theorem Core.handshake_frame_size {c next : Core} {size : Nat} {r : Bytes} {event : Option Event}
    (framed : c.handshake config clientKey r = .frame next size event) :
    2 ≤ size ∧ size ≤ r.length := by
  unfold handshake at framed
  split at framed
  next => cases framed
  next => cases framed
  next response bodyStart parsed =>
    have := parseResponse_bounds parsed
    split at framed
    next => cases framed
    next =>
      simp only [Verdict.frame.injEq] at framed
      omega

theorem Core.judge_frame_size {c next : Core} {size : Nat} {r : Bytes} {event : Option Event}
    (framed : c.judge config clientKey r = .frame next size event) :
    2 ≤ size ∧ size ≤ r.length := by
  unfold judge at framed
  split at framed
  next => cases framed
  next => exact handshake_frame_size config clientKey framed
  all_goals
    split at framed
    next => cases framed
    next => exact sound_frame_size config framed

theorem Core.step_frame_size {fault : Fault} {mode : Mode} {c next : Core} {size : Nat} {r : Bytes}
    {event : Option Event}
    (framed : c.step config clientKey fault mode r = .frame next size event) :
    2 ≤ size ∧ size ≤ r.length := by
  unfold step at framed
  split at framed
  next => cases framed
  next => exact handshake_frame_size config clientKey framed
  all_goals
    split at framed
    next => cases framed
    next =>
      split at framed
      next => cases framed
      next => exact sound_frame_size config framed

theorem Core.handshake_append {c : Core} {r : Bytes}
    (settled : c.handshake config clientKey r ≠ .needMore) (more : Bytes) :
    c.handshake config clientKey (r ++ more) = c.handshake config clientKey r := by
  have decided : parseResponse r ≠ .ok none := by
    intro short
    simp [handshake, short] at settled
  unfold handshake
  rw [parseResponse_append decided]

/-- A verdict stands when more bytes arrive. -/
theorem Core.judge_append {c : Core} {r : Bytes}
    (settled : c.judge config clientKey r ≠ .needMore) (more : Bytes) :
    c.judge config clientKey (r ++ more) = c.judge config clientKey r := by
  unfold judge at settled ⊢
  split
  next => rfl
  next connecting =>
    simp only [connecting] at settled
    exact handshake_append config clientKey settled more
  all_goals
    next state =>
      simp only [state] at settled
      by_cases bad : BadHeader r = true
      · rw [if_pos bad, if_pos (badHeader_append bad more)]
      · rw [if_neg bad] at settled ⊢
        rw [badHeader_of_sound config settled, if_neg bad, sound_append config settled]

/-- A path that reports by a lawful rule gives the prescribed verdict; on a malformed header it
reports, or waits for the rest of the header. -/
theorem Core.step_of_judge {fault : Fault} (lawful : fault.Lawful) (mode : Mode) (c : Core)
    (r : Bytes) :
    (c.judge config clientKey r ≠ .violation ∧
        c.step config clientKey fault mode r = c.judge config clientKey r) ∨
      (c.judge config clientKey r = .violation ∧
        ((c.step config clientKey fault mode r = .needMore ∧ ¬ HeaderComplete r) ∨
          ∃ e reason, c.step config clientKey fault mode r =
            .fail (c.queueClose CloseCode.protocolError.asU16 reason) (.frame e))) := by
  have active := activeFault_lawful lawful mode c
  unfold judge step
  split
  next => exact .inl ⟨by simp, rfl⟩
  next => exact .inl ⟨handshake_ne_violation config clientKey c r, rfl⟩
  all_goals
    by_cases bad : BadHeader r = true
    · refine .inr ⟨by rw [if_pos bad], ?_⟩
      cases reported : activeFault fault mode c r with
      | none =>
          refine .inl ⟨by simp [bad], fun complete => ?_⟩
          have := active.reports complete bad
          simp [reported] at this
      | some x => exact .inr ⟨x.1, x.2, rfl⟩
    · refine .inl ⟨?_, ?_⟩
      · rw [if_neg bad]
        exact c.sound_ne_violation config r
      · cases reported : activeFault fault mode c r with
        | none => simp [bad]
        | some x => exact absurd (active.malformed reported) bad

end Streams

end Talaris.Ws
