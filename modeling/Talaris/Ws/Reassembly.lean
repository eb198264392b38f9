import Talaris.Ws.Answers
import Talaris.Ws.Chunking
import Talaris.Ws.Encode

/-!
# Reassembly inverts fragmentation

A peer may cut its messages into fragments and put Ping and Pong frames between any two frames
(`Stream`).  The frames, encoded with `encodeHeader` and read in any chunks, give back the
messages and the control frames in their order (`reassembly`).
-/

namespace Talaris.Ws

/-! ## Streams of the peer -/

/-- An unmasked frame. -/
def serverFrame (fin : Bool) (opcode : OpCode) (payload : Bytes) : Bytes :=
  encodeHeader fin opcode none payload.length ++ payload

inductive ControlFrame where
  | ping (payload : Bytes)
  | pong (payload : Bytes)

namespace ControlFrame

def opcode : ControlFrame → OpCode
  | ping _ => .ping
  | pong _ => .pong

def payload : ControlFrame → Bytes
  | ping payload | pong payload => payload

def event : ControlFrame → Event
  | ping payload => .ping payload
  | pong payload => .pong payload

def encode (control : ControlFrame) : Bytes := serverFrame true control.opcode control.payload

end ControlFrame

/-- A piece of a message, and the control frames sent before it. -/
structure Fragment where
  before : List ControlFrame
  payload : Bytes

/-- A message in at least one fragment. -/
structure Message where
  kind : DataKind
  first : Fragment
  rest : List Fragment

/-- Messages, and the control frames behind the last one. -/
structure Stream where
  messages : List Message
  after : List ControlFrame

/-- The bytes of fragments: the first under its opcode, the others as continuations, the last
with FIN. -/
def encodeFragments (opcode : OpCode) : List Fragment → Bytes
  | [] => []
  | fragment :: rest =>
      fragment.before.flatMap ControlFrame.encode ++
        (serverFrame rest.isEmpty opcode fragment.payload ++ encodeFragments .continuation rest)

namespace Message

def fragments (message : Message) : List Fragment := message.first :: message.rest

def payload (message : Message) : Bytes := message.fragments.flatMap Fragment.payload

def encode (message : Message) : Bytes :=
  encodeFragments message.kind.toOpCode message.fragments

/-- The control frames come out where they stand, the message at its end. -/
def events (message : Message) : List Event :=
  (message.fragments.flatMap fun fragment => fragment.before.map ControlFrame.event) ++
    [message.kind.event message.payload]

end Message

namespace Stream

def encode (stream : Stream) : Bytes :=
  stream.messages.flatMap Message.encode ++ stream.after.flatMap ControlFrame.encode

def events (stream : Stream) : List Event :=
  stream.messages.flatMap Message.events ++ stream.after.map ControlFrame.event

end Stream

/-! ## What a client admits -/

/-- A control frame within the limits. -/
def ControlFrame.Admitted (config : WsConfig) (control : ControlFrame) : Prop :=
  control.payload.length ≤ maxControlPayload ∧ control.payload.length ≤ config.maxFramePayload

/-- A fragment within the limits for one frame. -/
structure Fragment.Admitted (config : WsConfig) (fragment : Fragment) : Prop where
  before : ∀ control ∈ fragment.before, control.Admitted config
  payload : fragment.payload.length ≤ config.maxFramePayload

/-- A message within the limits, whose text is UTF-8; no buffer is longer than `isize::MAX`. -/
structure Message.Admitted (config : WsConfig) (message : Message) : Prop where
  fragments : ∀ fragment ∈ message.fragments, fragment.Admitted config
  size : message.payload.length ≤ config.maxMessageSize
  addressable : message.payload.length < 2 ^ 63
  utf8 : message.kind = .text → Utf8.valid message.payload = true

structure Stream.Admitted (config : WsConfig) (stream : Stream) : Prop where
  messages : ∀ message ∈ stream.messages, message.Admitted config
  after : ∀ control ∈ stream.after, control.Admitted config

/-! ## Reading the frames -/

section Reading

variable [AcceptDigest] {config : WsConfig} {clientKey : Text} {c : Core}

/-- The decoder after it has answered events. -/
def Core.answering (c : Core) (config : WsConfig) (events : List Event) : Core :=
  { c with outbound := c.outbound ++ events.flatMap (Event.answer config c.state) }

omit [AcceptDigest] in
theorem Core.answering_append (first second : List Event) :
    c.answering config (first ++ second) = (c.answering config first).answering config second := by
  simp [answering]

variable (config clientKey) in
/-- A frame of the peer is read as its header says. -/
theorem judge_serverFrame (isOpen : c.state = .isOpen) {fin : Bool} {opcode : OpCode}
    {payload : Bytes} (allowed : HeaderAllowed fin opcode payload.length) (rest : Bytes) :
    c.judge config clientKey (serverFrame fin opcode payload ++ rest) =
      c.body config ⟨fin, opcode, none, payload.length⟩
        (encodeHeader fin opcode none payload.length).length
        (serverFrame fin opcode payload ++ rest) := by
  have parsed := parseHeader_encodeHeader allowed none (payload ++ rest)
  rw [← List.append_assoc] at parsed
  have good : BadHeader (serverFrame fin opcode payload ++ rest) = false := by
    rw [serverFrame, badHeader_of_some parsed]
    rfl
  simp only [Core.judge, isOpen, good, Core.sound]
  rw [serverFrame, parsed]
  rfl

omit [AcceptDigest] in
/-- Its payload, cut out of the bytes. -/
theorem serverFrame_payload (fin : Bool) (opcode : OpCode) (payload rest : Bytes) :
    let size := (encodeHeader fin opcode none payload.length).length
    ((serverFrame fin opcode payload ++ rest).take (size + payload.length)).drop size = payload ∧
      (serverFrame fin opcode payload ++ rest).drop (size + payload.length) = rest ∧
      ¬ (serverFrame fin opcode payload ++ rest).length < size + payload.length := by
  dsimp only
  have length : (serverFrame fin opcode payload).length =
      (encodeHeader fin opcode none payload.length).length + payload.length := by
    rw [serverFrame, List.length_append]
  refine ⟨?_, ?_, ?_⟩
  · rw [← length, List.take_left, serverFrame, List.drop_left]
  · rw [← length, List.drop_left]
  · rw [List.length_append, length]
    omega

/-- A control frame gives its event and is answered. -/
theorem scan_control (isOpen : c.state = .isOpen) {control : ControlFrame}
    (admitted : control.Admitted config) (rest : Bytes) :
    scan config clientKey c (control.encode ++ rest) =
      (scan config clientKey (c.answering config [control.event]) rest).prepend
        [control.event] := by
  obtain ⟨short, allowed⟩ := admitted
  have isControl : control.opcode.isControl = true := by cases control <;> rfl
  have header : HeaderAllowed true control.opcode control.payload.length := by
    refine ⟨?_, fun _ => ⟨rfl, short⟩⟩
    rw [maxControlPayload] at short
    omega
  have judged := judge_serverFrame config clientKey isOpen header rest
  obtain ⟨payload, after, long⟩ := serverFrame_payload true control.opcode control.payload rest
  rw [Core.body, if_neg (by simpa using allowed), if_pos isControl, if_neg long, payload] at judged
  have verdict : c.judge config clientKey (control.encode ++ rest) =
      .frame (c.answering config [control.event])
        ((encodeHeader true control.opcode none control.payload.length).length +
          control.payload.length) (some control.event) := by
    refine judged.trans ?_
    cases control with
    | ping payload =>
        simp only [ControlFrame.opcode, ControlFrame.payload, ControlFrame.event, Core.control,
          Core.answering, List.flatMap_singleton, Event.answer]
        split <;> simp [Core.write]
    | pong payload =>
        simp [ControlFrame.opcode, ControlFrame.payload, ControlFrame.event, Core.control,
          Core.answering, Event.answer]
  rw [scan_frame verdict]
  exact congrArg (fun bytes => (scan config clientKey _ bytes).prepend _) after

theorem scan_controls (isOpen : c.state = .isOpen) (controls : List ControlFrame)
    (admitted : ∀ control ∈ controls, control.Admitted config) (rest : Bytes) :
    scan config clientKey c (controls.flatMap ControlFrame.encode ++ rest) =
      (scan config clientKey (c.answering config (controls.map ControlFrame.event)) rest).prepend
        (controls.map ControlFrame.event) := by
  induction controls generalizing c with
  | nil => simp [Core.answering]
  | cons control controls ih =>
      have first := admitted control (by simp)
      have others : ∀ control ∈ controls, control.Admitted config := fun control member =>
        admitted control (by simp [member])
      have still : (c.answering config [control.event]).state = .isOpen := isOpen
      rw [List.flatMap_cons, List.append_assoc, scan_control isOpen first, ih still others,
        ← Core.answering_append, Scan.prepend_prepend]
      rfl

omit [AcceptDigest] in
theorem DataKind.event_answer (kind : DataKind) (payload : Bytes) (state : ConnState) :
    Event.answer config state (kind.event payload) = [] := by
  cases kind <;> rfl

/-- The bytes of the fragments. -/
def fragmentBytes (fragments : List Fragment) : Bytes := fragments.flatMap Fragment.payload

/-- The events of the control frames between them. -/
def controlEvents (fragments : List Fragment) : List Event :=
  fragments.flatMap fun fragment => fragment.before.map ControlFrame.event

/-- One data frame that joins a message: the message goes on, or it is complete. -/
theorem scan_data (isOpen : c.state = .isOpen) {fin : Bool} {opcode : OpCode} {kind : DataKind}
    {acc payload : Bytes} (isData : opcode.isControl = false)
    (joined : joins c.message opcode = some (kind, acc))
    (allowed : payload.length ≤ config.maxFramePayload)
    (size : (acc ++ payload).length ≤ config.maxMessageSize)
    (addressable : (acc ++ payload).length < 2 ^ 63)
    (utf8 : fin = true → kind = .text → Utf8.valid (acc ++ payload) = true) (rest : Bytes) :
    scan config clientKey c (serverFrame fin opcode payload ++ rest) =
      if fin then
        (scan config clientKey { c with message := none } rest).prepend
          [kind.event (acc ++ payload)]
      else scan config clientKey { c with message := some (kind, acc ++ payload) } rest := by
  rw [List.length_append] at size addressable
  have header : HeaderAllowed fin opcode payload.length := ⟨by omega, by simp [isData]⟩
  have judged := judge_serverFrame config clientKey isOpen header rest
  obtain ⟨cut, after, long⟩ := serverFrame_payload fin opcode payload rest
  have fits : ¬ saturatingAdd64 acc.length payload.length > config.maxMessageSize := by
    rw [saturatingAdd64]
    omega
  rw [Core.body_of_joins isData joined (by simpa using allowed), Core.data, if_neg fits, if_neg long]
    at judged
  dsimp only at judged
  rw [cut] at judged
  cases fin with
  | false =>
      rw [if_pos (by rfl)] at judged
      rw [scan_frame judged, after]
      rfl
  | true =>
      have valid : ¬ (kind = .text ∧ (!WsClient.textAllowed config (acc ++ payload)) = true) := by
        rintro ⟨isText, refused⟩
        simp [WsClient.textAllowed, utf8 rfl isText] at refused
      rw [if_neg (by simp), if_neg valid] at judged
      rw [scan_frame judged, after]
      rfl

/-- The fragments of a message: control events in between, the message at the end. -/
theorem scan_fragments (isOpen : c.state = .isOpen) {opcode : OpCode} {kind : DataKind}
    {acc : Bytes} (isData : opcode.isControl = false)
    (joined : joins c.message opcode = some (kind, acc)) (fragments : List Fragment)
    (nonempty : fragments ≠ []) (admitted : ∀ fragment ∈ fragments, fragment.Admitted config)
    (size : (acc ++ fragmentBytes fragments).length ≤ config.maxMessageSize)
    (addressable : (acc ++ fragmentBytes fragments).length < 2 ^ 63)
    (utf8 : kind = .text → Utf8.valid (acc ++ fragmentBytes fragments) = true) (rest : Bytes) :
    scan config clientKey c (encodeFragments opcode fragments ++ rest) =
      (scan config clientKey
        (Core.answering { c with message := none } config (controlEvents fragments)) rest).prepend
        (controlEvents fragments ++ [kind.event (acc ++ fragmentBytes fragments)]) := by
  induction fragments generalizing c opcode acc with
  | nil => exact absurd rfl nonempty
  | cons fragment others ih =>
      obtain ⟨controls, allowed⟩ := admitted fragment (by simp)
      have later : ∀ fragment ∈ others, fragment.Admitted config := fun fragment member =>
        admitted fragment (by simp [member])
      have bytes : acc ++ fragmentBytes (fragment :: others) =
          acc ++ fragment.payload ++ fragmentBytes others := by
        simp [fragmentBytes]
      have events : controlEvents (fragment :: others) =
          fragment.before.map ControlFrame.event ++ controlEvents others := rfl
      rw [bytes] at size addressable utf8 ⊢
      have open₁ : (c.answering config (fragment.before.map ControlFrame.event)).state = .isOpen :=
        isOpen
      have joined₁ : joins (c.answering config (fragment.before.map ControlFrame.event)).message
          opcode = some (kind, acc) := joined
      have total : (acc ++ fragment.payload ++ fragmentBytes others).length =
          (acc ++ fragment.payload).length + (fragmentBytes others).length := List.length_append
      rw [encodeFragments, List.append_assoc, List.append_assoc,
        scan_controls isOpen fragment.before controls]
      cases others with
      | nil =>
          simp only [fragmentBytes, List.flatMap_nil, List.append_nil] at size addressable utf8 ⊢
          rw [List.isEmpty_nil, scan_data open₁ isData joined₁ allowed size addressable
            (fun _ => utf8), if_pos rfl, encodeFragments, List.nil_append, Scan.prepend_prepend]
          simp [controlEvents, Core.answering]
      | cons next others =>
          have joined₂ : joins (some (kind, acc ++ fragment.payload)) .continuation =
              some (kind, acc ++ fragment.payload) := rfl
          have tail := ih (c := { c.answering config (fragment.before.map ControlFrame.event) with
            message := some (kind, acc ++ fragment.payload) }) open₁ rfl joined₂ (by simp) later size
            addressable utf8
          rw [List.isEmpty_cons, scan_data open₁ isData joined₁ allowed (by omega) (by omega)
            (by simp), if_neg (by simp), tail, Scan.prepend_prepend, events]
          simp [Core.answering]

/-- A whole message. -/
theorem scan_message (isOpen : c.state = .isOpen) (between : c.message = none) {message : Message}
    (admitted : message.Admitted config) (rest : Bytes) :
    scan config clientKey c (message.encode ++ rest) =
      (scan config clientKey (c.answering config message.events) rest).prepend message.events := by
  have joined : joins c.message message.kind.toOpCode = some (message.kind, []) := by
    rw [between]
    cases message.kind <;> rfl
  have isData : message.kind.toOpCode.isControl = false := by cases message.kind <;> rfl
  have read : scan config clientKey c (message.encode ++ rest) = _ :=
    scan_fragments isOpen isData joined message.fragments (by simp [Message.fragments])
      admitted.fragments admitted.size admitted.addressable admitted.utf8 rest
  have unchanged : { c with message := none } = c := by
    cases c
    simp_all
  rw [unchanged] at read
  have quiet : c.answering config message.events =
      c.answering config (controlEvents message.fragments) := by
    simp [Core.answering, Message.events, controlEvents, DataKind.event_answer]
  rw [quiet]
  exact read

theorem scan_messages (isOpen : c.state = .isOpen) (between : c.message = none)
    (messages : List Message) (admitted : ∀ message ∈ messages, message.Admitted config)
    (rest : Bytes) :
    scan config clientKey c (messages.flatMap Message.encode ++ rest) =
      (scan config clientKey (c.answering config (messages.flatMap Message.events)) rest).prepend
        (messages.flatMap Message.events) := by
  induction messages generalizing c with
  | nil => simp [Core.answering]
  | cons message messages ih =>
      have first := admitted message (by simp)
      have others : ∀ message ∈ messages, message.Admitted config := fun message member =>
        admitted message (by simp [member])
      have still : (c.answering config message.events).state = .isOpen := isOpen
      have clear : (c.answering config message.events).message = none := between
      rw [List.flatMap_cons, List.append_assoc, scan_message isOpen between first,
        ih still clear others, ← Core.answering_append, Scan.prepend_prepend, List.flatMap_cons]

theorem scan_nothing (isOpen : c.state = .isOpen) :
    scan config clientKey c [] = ⟨[], c, [], .waiting⟩ := by
  refine scan_needMore ?_
  simp [Core.judge, isOpen, BadHeader, Core.sound, parseHeader]

/-- The whole stream. -/
theorem scan_stream (isOpen : c.state = .isOpen) (between : c.message = none) {stream : Stream}
    (admitted : stream.Admitted config) :
    scan config clientKey c stream.encode =
      ⟨stream.events, c.answering config stream.events, [], .waiting⟩ := by
  have still : (c.answering config (stream.messages.flatMap Message.events)).state = .isOpen :=
    isOpen
  have last : ((c.answering config (stream.messages.flatMap Message.events)).answering config
      (stream.after.map ControlFrame.event)).state = .isOpen := isOpen
  have controls : scan config clientKey _ (stream.after.flatMap ControlFrame.encode ++ []) = _ :=
    scan_controls still stream.after admitted.after []
  rw [List.append_nil, scan_nothing last] at controls
  rw [Stream.encode, scan_messages isOpen between stream.messages admitted.messages, controls,
    ← Core.answering_append]
  simp [Scan.prepend, Stream.events]

end Reading

/-! ## The client -/

/-- Open, between two messages, with nothing buffered. -/
structure WsClient.AtRest (w : WsClient) : Prop where
  isOpen : w.state = .isOpen
  parser : w.clearAfterEmit.parser = .idle ∨ w.clearAfterEmit.parser = .headerPartial []
  recvBuf : w.clearAfterEmit.recvBuf = []
  msgOpcode : w.clearAfterEmit.msgOpcode = none

/-- The payloads of the Ping frames, in order. -/
def Stream.pings (stream : Stream) : List Bytes :=
  stream.events.filterMap fun event =>
    match event with
    | .ping payload => some payload
    | _ => none

theorem flatMap_answer (config : WsConfig) (events : List Event)
    (open_ : ∀ code reason, .close code reason ∉ events) :
    events.flatMap (Event.answer config .isOpen) =
      if config.autoPong then
        (events.filterMap fun event =>
          match event with
          | .ping payload => some payload
          | _ => none).map fun payload => ⟨true, .pong, payload⟩
      else [] := by
  induction events with
  | nil => simp
  | cons event events ih =>
      have rest := ih fun code reason member => open_ code reason (by simp [member])
      cases event with
      | close code reason => exact absurd (by simp) (open_ code reason)
      | ping payload =>
          rw [List.flatMap_cons, rest]
          split <;> simp_all [Event.answer]
      | handshakeComplete | text _ | binary _ | pong _ =>
          rw [List.flatMap_cons, rest]
          simp [Event.answer]

theorem Stream.events_open (stream : Stream) (code : Nat) (reason : Bytes) :
    .close code reason ∉ stream.events := by
  have control (frame : ControlFrame) : frame.event ≠ .close code reason := by
    cases frame <;> simp [ControlFrame.event]
  have data (kind : DataKind) (payload : Bytes) : kind.event payload ≠ .close code reason := by
    cases kind <;> simp [DataKind.event]
  simp only [Stream.events, Message.events, List.mem_append, List.mem_flatMap, List.mem_map,
    List.mem_singleton, not_or, not_exists, not_and]
  exact ⟨fun message _ => ⟨fun fragment _ frame _ => control frame,
    fun same => data _ _ same.symm⟩, fun frame _ => control frame⟩

section Client

variable [AcceptDigest]

/-- A client at rest stands at a frame boundary with nothing behind it. -/
theorem WsClient.AtRest.stands {w : WsClient} (atRest : w.AtRest)
    (reached : clientMachine.Reach Basis.Machine.always w) :
    ∃ mode c, Stands w.config w.clientKey w mode c [] ∧ c.state = .isOpen ∧ c.message = none ∧
      c.outbound = w.tx.outbound := by
  have live : ¬ w.state.Ending := by
    intro ending
    exact ending.ne_open atRest.isOpen
  obtain ⟨mode, c, r, stands⟩ := WsClient.reached_ready reached live
  have input := stands.holds.input
  unfold HoldsInput at input
  have boundary : r = [] ∧ HoldsMessage w.clearAfterEmit c.message := by
    obtain parser | parser := atRest.parser
    · simp only [parser, atRest.recvBuf] at input
      exact input.2
    · simp only [parser, atRest.recvBuf] at input
      exact ⟨input.2.2.1, input.2.2.2.2⟩
  obtain ⟨rfl, opcode, -⟩ := boundary
  refine ⟨mode, c, stands, stands.state_eq ▸ atRest.isOpen, ?_, stands.wire.outbound.symm⟩
  rw [atRest.msgOpcode] at opcode
  cases held : c.message with
  | none => rfl
  | some found => simp [held] at opcode

/-- Whatever the fragments, the control frames between them and the chunks they arrive in: the
client hands out the messages and the control frames in order, reports no error, and answers every
Ping with one Pong of the same payload. -/
theorem reassembly {w : WsClient} (reached : clientMachine.Reach Basis.Machine.always w)
    (atRest : w.AtRest) {stream : Stream} (admitted : stream.Admitted w.config)
    {chunks : List Bytes} (cut : chunks.flatten = stream.encode) :
    let out := inChunks WsClient.feedAndPoll w chunks
    out.2.1 = stream.events ∧ out.2.2 = .ok stream.events.length ∧ out.1.state = .isOpen ∧
      out.1.tx.outbound = w.tx.outbound ++
        if w.config.autoPong then stream.pings.map fun payload => ⟨true, .pong, payload⟩
        else [] := by
  obtain ⟨mode, c, stands, isOpen, between, outbound⟩ := atRest.stands reached
  have rests : Rests w.config w.clientKey c [] := .inl (scan_nothing isOpen)
  have follows := inChunks_rests feedAndPoll_faithful stands rests chunks
  rw [List.nil_append, cut, scan_stream isOpen between admitted] at follows
  obtain ⟨events, waits⟩ := follows
  have waits : Waits w.config w.clientKey (inChunks WsClient.feedAndPoll w chunks)
      ⟨stream.events, c.answering w.config stream.events, [], .waiting⟩ := waits
  obtain ⟨mode, ended⟩ := waits.stands
  refine ⟨by simpa using events, waits.result, ended.wire.state.trans isOpen, ?_⟩
  rw [ended.wire.outbound, ← outbound]
  refine congrArg (c.outbound ++ ·) ?_
  rw [isOpen]
  exact flatMap_answer w.config stream.events stream.events_open

end Client

namespace Sample

/-- `é` cut inside its two bytes, a Ping between the halves. -/
def stream : Stream :=
  { messages := [⟨.text, ⟨[], [0xC3]⟩, [⟨[.ping [0x50]], [0xA9]⟩]⟩]
    after := [] }

end Sample

section Witness

attribute [local instance] Sample.digest

/-- The sample stream, its bytes cut in the middle of the Ping. -/
theorem reassembly_text_around_ping :
    let out := inChunks WsClient.feedAndPoll Sample.opened
      [Sample.stream.encode.take 4, Sample.stream.encode.drop 4]
    out.2.1 = [.ping [0x50], .text [0xC3, 0xA9]] ∧ out.2.2 = .ok 2 ∧ out.1.state = .isOpen ∧
      out.1.tx.outbound = Sample.opened.tx.outbound ++
        if Sample.opened.config.autoPong then
          Sample.stream.pings.map fun payload => ⟨true, .pong, payload⟩
        else [] := by
  have atRest : Sample.opened.AtRest :=
    ⟨by decide +kernel, by decide +kernel, by decide +kernel, by decide +kernel⟩
  have admitted : Sample.stream.Admitted Sample.opened.config := by
    refine ⟨fun message member => ?_, by simp [Sample.stream]⟩
    obtain rfl : message = ⟨.text, ⟨[], [0xC3]⟩, [⟨[.ping [0x50]], [0xA9]⟩]⟩ := by
      simpa [Sample.stream] using member
    refine ⟨fun fragment member => ?_, by decide +kernel, by decide +kernel, by decide +kernel⟩
    obtain rfl | rfl : fragment = ⟨[], [0xC3]⟩ ∨ fragment = ⟨[.ping [0x50]], [0xA9]⟩ := by
      simpa [Message.fragments] using member
    · exact ⟨by simp, by decide +kernel⟩
    · refine ⟨fun control member => ?_, by decide +kernel⟩
      obtain rfl : control = .ping [0x50] := by simpa using member
      exact ⟨by decide +kernel, by decide +kernel⟩
  exact reassembly (Sample.opened_reached.mono fun _ _ _ => trivial) atRest admitted
    (by decide +kernel)

end Witness

end Talaris.Ws
