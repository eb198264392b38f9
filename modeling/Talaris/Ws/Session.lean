import Talaris.Ws.Answers
import Talaris.Ws.Encode
import Talaris.Ws.Mask

/-!
# Sessions

A session is a client from its creation on, with the bytes its caller has acknowledged.
Everything it ever transmits is the upgrade request followed by whole frames
(`transmitted_well_formed`), and the Close frame among them is the last but for automatic
pongs (`close_discipline`).
-/

namespace Talaris.Ws

open Talaris.Basis
open Talaris.Http

/-! ## The transmit queue -/

/-- The bytes of the frames, one after the other. -/
def framesOnWire (frames : List (OutFrame × MaskKey)) : Bytes :=
  frames.flatMap fun entry => entry.1.encode entry.2

@[simp] theorem framesOnWire_append (first second : List (OutFrame × MaskKey)) :
    framesOnWire (first ++ second) = framesOnWire first ++ framesOnWire second :=
  List.flatMap_append

namespace TxQueue

/-- The bytes acknowledged are bytes of the buffer. -/
def Sound (tx : TxQueue) : Prop := tx.txHead ≤ tx.txBuf.length

theorem compactTxIfNeeded_spec {tx : TxQueue} (sound : tx.Sound) (extra : Nat) :
    (tx.compactTxIfNeeded extra).Sound ∧ (tx.compactTxIfNeeded extra).pendingTx = tx.pendingTx := by
  unfold compactTxIfNeeded
  repeat' split
  all_goals first | exact ⟨sound, rfl⟩ | exact ⟨Nat.zero_le _, by simp [pendingTx]⟩

theorem extend_spec {tx : TxQueue} (sound : tx.Sound) (bytes : Bytes) :
    (tx.extend bytes).Sound ∧ (tx.extend bytes).pendingTx = tx.pendingTx ++ bytes := by
  constructor
  · have inside : tx.txHead ≤ tx.txBuf.length := sound
    simp only [Sound, extend, List.length_append]
    omega
  · exact List.drop_append_of_le_length sound

theorem nextMask_spec (tx : TxQueue) :
    tx.nextMask.2.txBuf = tx.txBuf ∧ tx.nextMask.2.txHead = tx.txHead := by
  unfold nextMask
  dsimp only
  split <;> exact ⟨rfl, rfl⟩

/-- A frame goes behind the pending bytes. -/
theorem writeFrame_spec {tx : TxQueue} (sound : tx.Sound) (fin : Bool) (opcode : OpCode)
    (payload : Bytes) :
    (tx.writeFrame fin opcode payload).Sound ∧ ∃ key,
      (tx.writeFrame fin opcode payload).queued = tx.queued ++ [(⟨fin, opcode, payload⟩, key)] ∧
      (tx.writeFrame fin opcode payload).pendingTx =
        tx.pendingTx ++ OutFrame.encode ⟨fin, opcode, payload⟩ key := by
  obtain ⟨buf, head⟩ := tx.nextMask_spec
  have queued := tx.nextMask_queued
  have masked : tx.nextMask.2.Sound := by
    rw [Sound, buf, head]
    exact sound
  have pending : tx.nextMask.2.pendingTx = tx.pendingTx := by rw [pendingTx, buf, head, pendingTx]
  unfold writeFrame
  generalize tx.nextMask = drawn at masked pending queued
  obtain ⟨key, tx₁⟩ := drawn
  dsimp only at masked pending queued ⊢
  generalize size : (encodeHeader fin opcode (some key) payload.length).length + payload.length =
    extra
  obtain ⟨compacted, same⟩ := compactTxIfNeeded_spec masked extra
  have kept := tx₁.compactTxIfNeeded_queued extra
  obtain ⟨headed, header⟩ :=
    extend_spec compacted (encodeHeader fin opcode (some key) payload.length)
  obtain ⟨written, body⟩ := extend_spec headed (maskInplace payload key)
  refine ⟨written, key, ?_, ?_⟩
  · show (tx₁.compactTxIfNeeded extra).queued ++ _ = _
    rw [kept, queued]
  · refine body.trans ?_
    rw [header, same, pending, List.append_assoc]
    rfl

theorem ackTx_spec {tx : TxQueue} (sound : tx.Sound) {n : Nat} (within : n ≤ tx.pendingTx.length) :
    (tx.ackTx n).Sound ∧ tx.pendingTx.take n ++ (tx.ackTx n).pendingTx = tx.pendingTx := by
  have inside : tx.txHead ≤ tx.txBuf.length := sound
  simp only [pendingTx, List.length_drop] at within
  unfold ackTx
  split
  next all =>
    refine ⟨Nat.zero_le _, ?_⟩
    simp only [pendingTx, List.drop_zero, List.append_nil]
    rw [List.take_of_length_le]
    simp only [List.length_drop]
    omega
  next =>
    refine ⟨?_, ?_⟩
    · show tx.txHead + n ≤ tx.txBuf.length
      omega
    · simp only [pendingTx]
      rw [← List.drop_drop, List.take_append_drop]

@[simp] theorem ackTx_queued (tx : TxQueue) (n : Nat) : (tx.ackTx n).queued = tx.queued := by
  unfold ackTx
  split <;> rfl

end TxQueue

/-! ## Moves write whole frames -/

/-- A frame as the client writes it: whole, and short if it is a control frame. -/
def OutFrame.Whole (frame : OutFrame) : Prop :=
  frame.fin = true ∧
    (frame.opcode.isControl = true → frame.payload.length ≤ maxControlPayload)

/-- The second queue holds the frames of the first and further whole ones, and the bytes of
these behind its pending bytes. -/
def TxQueue.Extends (tx tx' : TxQueue) : Prop :=
  tx.Sound → tx'.Sound ∧ ∃ added, tx'.queued = tx.queued ++ added ∧
    tx'.pendingTx = tx.pendingTx ++ framesOnWire added ∧ ∀ entry ∈ added, entry.1.Whole

theorem TxQueue.Extends.refl (tx : TxQueue) : tx.Extends tx := fun sound =>
  ⟨sound, [], by simp, by simp [framesOnWire], by simp⟩

theorem TxQueue.Extends.trans {tx tx' tx'' : TxQueue} (first : tx.Extends tx')
    (second : tx'.Extends tx'') : tx.Extends tx'' := by
  intro sound
  obtain ⟨sound', added, queued, pending, whole⟩ := first sound
  obtain ⟨sound'', more, queued', pending', whole'⟩ := second sound'
  refine ⟨sound'', added ++ more, ?_, ?_, ?_⟩
  · rw [queued', queued, List.append_assoc]
  · rw [pending', pending, framesOnWire_append, List.append_assoc]
  · intro entry member
    exact (List.mem_append.mp member).elim (whole entry) (whole' entry)

theorem TxQueue.writeFrame_extends (tx : TxQueue) {opcode : OpCode} {payload : Bytes}
    (short : opcode.isControl = true → payload.length ≤ maxControlPayload) :
    tx.Extends (tx.writeFrame true opcode payload) := by
  intro sound
  obtain ⟨still, key, queued, pending⟩ := TxQueue.writeFrame_spec sound true opcode payload
  refine ⟨still, _, queued, ?_, ?_⟩
  · rw [pending]
    simp [framesOnWire]
  · intro entry member
    obtain rfl := List.mem_singleton.mp member
    exact ⟨rfl, short⟩

theorem encodeClosePayload_length (code : Nat) (reason : Bytes) :
    (encodeClosePayload code reason).length = reason.length + 2 := by
  simp [encodeClosePayload]
  omega

theorem Wire.Move.extends {wire wire' : Wire} (move : Wire.Move wire wire') :
    wire.tx.Extends wire'.tx := by
  cases move with
  | opened tx | ended state tx => exact .refl tx
  | sent tx opcode payload notClose short => exact tx.writeFrame_extends short
  | ponged state tx payload live short => exact tx.writeFrame_extends fun _ => short
  | closed tx code reason allowed short =>
      refine tx.writeFrame_extends fun _ => ?_
      rw [encodeClosePayload_length, maxControlPayload]
      omega

theorem WsClient.Moves.extends {w w' : WsClient} (moves : w.Moves w') : w.tx.Extends w'.tx := by
  have path := moves.path
  generalize finish : Wire.mk w'.state w'.tx = last at path
  have reached : w.tx.Extends last.tx := by
    clear finish
    induction path with
    | refl => exact .refl _
    | tail _ move ih => exact ih.trans move.extends
  rw [← finish] at reached
  exact reached

/-! ## The discipline of closing -/

/-- A Close frame with a code that an endpoint may send. -/
def OutFrame.IsClose (frame : OutFrame) : Prop :=
  frame.opcode = .close ∧ ∃ code reason,
    isValidEndpointSent code = true ∧ frame.payload = encodeClosePayload code reason

/-- Nothing is sent before the upgrade, and nothing but pongs after a Close frame. -/
structure Wire.Disciplined (wire : Wire) : Prop where
  quiet : wire.state = .connecting → wire.tx.outbound = []
  ordered : (∀ frame ∈ wire.tx.outbound, frame.opcode ≠ .close) ∨
    (wire.state.Ending ∧ ∃ before close pongs,
      wire.tx.outbound = before ++ close :: pongs ∧ close.IsClose ∧
        (∀ frame ∈ before, frame.opcode ≠ .close) ∧ ∀ frame ∈ pongs, frame.opcode = .pong)

theorem Wire.Move.disciplined {wire wire' : Wire} (move : Wire.Move wire wire')
    (disciplined : wire.Disciplined) : wire'.Disciplined := by
  obtain ⟨quiet, ordered⟩ := disciplined
  cases move with
  | opened tx =>
      refine ⟨by simp, ?_⟩
      obtain none | ⟨ending, -⟩ := ordered
      · exact .inl none
      · simp [ConnState.Ending, ConnState.rank] at ending
  | ended state tx =>
      refine ⟨by simp, ?_⟩
      obtain none | ⟨-, sent⟩ := ordered
      · exact .inl none
      · exact .inr ⟨ConnState.rank_le_closed .closing, sent⟩
  | sent tx opcode payload notClose short =>
      refine ⟨by simp, ?_⟩
      obtain none | ⟨ending, -⟩ := ordered
      · refine .inl ?_
        simpa [TxQueue.writeFrame_outbound, or_imp, forall_and, notClose] using none
      · exact absurd rfl ending.ne_open
  | ponged state tx payload live short =>
      refine ⟨fun connecting => by simp_all, ?_⟩
      obtain none | ⟨ending, before, close, pongs, sent, isClose, clear, only⟩ := ordered
      · refine .inl ?_
        simpa [TxQueue.writeFrame_outbound, or_imp, forall_and] using none
      · refine .inr ⟨ending, before, close, pongs ++ [⟨true, .pong, payload⟩], ?_, isClose, clear, ?_⟩
        · simp only [TxQueue.writeFrame_outbound]
          rw [sent]
          simp
        · simpa [or_imp, forall_and] using only
  | closed tx code reason allowed short =>
      refine ⟨by simp, ?_⟩
      obtain none | ⟨ending, -⟩ := ordered
      · refine .inr ⟨Nat.le_refl _, tx.outbound, _, [], TxQueue.writeFrame_outbound _ _ _ _,
          ⟨rfl, code, reason, allowed, rfl⟩, none, by simp⟩
      · exact absurd rfl ending.ne_open

theorem WsClient.Moves.disciplined {w w' : WsClient} (moves : w.Moves w')
    (disciplined : Wire.Disciplined ⟨w.state, w.tx⟩) : Wire.Disciplined ⟨w'.state, w'.tx⟩ := by
  have path := moves.path
  generalize Wire.mk w'.state w'.tx = last at path
  induction path with
  | refl => exact disciplined
  | tail _ move ih => exact move.disciplined ih

/-! ## Sessions -/

/-- A client with the bytes that its caller has acknowledged. -/
structure Session where
  client : WsClient
  acked : Bytes

/-- Every public call, the handshake included. -/
inductive SessionCall where
  | beginHandshake
  | call (call : ClientCall)

/-- The bytes a call acknowledges. -/
def ClientCall.acknowledges (w : WsClient) : ClientCall → Bytes
  | .ackTx n => w.pendingTx.take n
  | .feedRecv _ | .pollEvent | .drain _ | .drainFromIngress _ _ | .sendText _ | .sendBinary _
  | .sendPing _ | .sendPong _ | .sendClose _ _ => []

section Sessions

variable [AcceptDigest]

def Session.step (s : Session) : SessionCall → Session × Option WsError
  | .beginHandshake =>
      ({ s with client := s.client.beginHandshake.1 }, errorOf s.client.beginHandshake.2)
  | .call call =>
      (⟨(s.client.call call).1, s.acked ++ call.acknowledges s.client⟩, (s.client.call call).2)

def sessionMachine : Machine Session SessionCall (Option WsError) where
  initial s := (∃ config rng, WsClient.newClient config rng = .ok s.client) ∧ s.acked = []
  step := Session.step

namespace WsClient

/-- Acknowledging apart, every call moves the transmit side. -/
theorem call_drives (w : WsClient) {call : ClientCall} (sends : ∀ n, call ≠ .ackTx n) :
    w.Drives (w.call call).1 := by
  refine drives_respected.call w fun _ => ?_
  cases call with
  | sendText payload => exact w.sendText_drives payload
  | sendBinary payload => exact w.sendBinary_drives payload
  | sendPing payload => exact w.sendPing_drives payload
  | sendPong payload => exact w.sendPong_drives payload
  | sendClose code reason => exact w.sendClose_drives code reason
  | ackTx n => exact absurd rfl (sends n)
  | feedRecv _ | pollEvent | drain _ | drainFromIngress _ _ => simp_all [ClientCall.IsSend]

omit [AcceptDigest] in
theorem beginHandshake_cases (w : WsClient) :
    w.beginHandshake.1 = w ∨
      ∃ tx, w.beginHandshake.1 = { w with tx, handshakeStarted := true } ∧
        w.state = .connecting ∧ w.handshakeStarted = false ∧ tx.queued = w.tx.queued := by
  unfold beginHandshake
  split
  next => exact .inl rfl
  next connecting =>
    split
    next => exact .inl rfl
    next fresh =>
      refine .inr ⟨_, rfl, by simpa using connecting, by simpa using fresh, ?_⟩
      exact w.tx.compactTxIfNeeded_queued 256

end WsClient

/-! ### What holds in every session -/

/-- The invariant of sessions. -/
structure Session.Orderly (s : Session) : Prop where
  framed : s.client.Framed
  stands : s.client.Ready ∨ s.client.state.Ending
  disciplined : Wire.Disciplined ⟨s.client.state, s.client.tx⟩

omit [AcceptDigest] in
/-- The queue of frames is all that the discipline looks at. -/
theorem Wire.Disciplined.of_queued {state : ConnState} {tx tx' : TxQueue}
    (disciplined : Wire.Disciplined ⟨state, tx⟩) (same : tx'.queued = tx.queued) :
    Wire.Disciplined ⟨state, tx'⟩ := by
  have outbound : tx'.outbound = tx.outbound := by rw [TxQueue.outbound, same, TxQueue.outbound]
  obtain ⟨quiet, ordered⟩ := disciplined
  dsimp only at quiet ordered
  rw [← outbound] at quiet ordered
  exact ⟨quiet, ordered⟩

theorem newClient_fresh {config : WsConfig} {rng : SystemRandom} {w : WsClient}
    (made : WsClient.newClient config rng = .ok w) :
    w.Framed ∧ w.Ready ∧ w.state = .connecting ∧ w.tx.queued = [] ∧ w.tx.txBuf = [] ∧
      w.tx.txHead = 0 ∧ w.handshakeStarted = false := by
  unfold WsClient.newClient at made
  repeat' split at made
  all_goals cases made
  refine ⟨⟨by simp, by simp⟩, ?_, rfl, rfl, rfl, rfl, rfl⟩
  refine ⟨.idle, ⟨.connecting, none, []⟩, [], Holds.stands ⟨rfl, rfl, rfl, rfl, ⟨rfl, rfl⟩, ?_⟩⟩
  exact .idle rfl rfl ⟨rfl, by simp⟩

theorem Session.Orderly.start {s : Session} (initial : sessionMachine.initial s) : s.Orderly := by
  obtain ⟨⟨config, rng, made⟩, -⟩ := initial
  obtain ⟨framed, ready, -, queued, -⟩ := newClient_fresh made
  have empty : s.client.tx.outbound = [] := by rw [TxQueue.outbound, queued, List.map_nil]
  exact ⟨framed, .inl ready, fun _ => empty, .inl (by simp [empty])⟩

omit [AcceptDigest] in
theorem WsClient.Ready.rewire {w : WsClient} (ready : w.Ready) (tx : TxQueue) (started : Bool) :
    WsClient.Ready { w with tx, handshakeStarted := started } := by
  obtain ⟨mode, c, r, stands⟩ := ready
  refine ⟨mode, _, r, stands.rewire w.state fun live => ?_⟩
  rwa [stands.state_eq]

theorem Session.Orderly.begin {s : Session} (orderly : s.Orderly) :
    (s.step .beginHandshake).1.Orderly := by
  obtain same | ⟨tx, begun, connecting, -, queued⟩ := s.client.beginHandshake_cases
  · have unchanged : (s.step .beginHandshake).1 = s := by
      simp only [Session.step, same]
    rw [unchanged]
    exact orderly
  · simp only [Session.step, begun]
    refine ⟨orderly.framed.of_same ⟨rfl, rfl, rfl⟩, ?_, orderly.disciplined.of_queued queued⟩
    exact orderly.stands.imp (fun ready => ready.rewire tx true) id

theorem Session.Orderly.call {s : Session} (orderly : s.Orderly) (call : ClientCall) :
    (s.step (.call call)).1.Orderly := by
  have stands : (s.client.call call).1.Ready ∨ (s.client.call call).1.state.Ending := by
    obtain ready | ending := orderly.stands
    · by_cases clean : errorFree s.client call
      · exact .inl (ready.call clean)
      · exact .inr (ready.call_ending clean)
    · exact .inr (Nat.le_trans ending (s.client.call_before call))
  by_cases acks : ∃ n, call = .ackTx n
  · obtain ⟨n, rfl⟩ := acks
    refine ⟨orderly.framed.of_same ⟨rfl, rfl, rfl⟩, stands, ?_⟩
    exact orderly.disciplined.of_queued (s.client.tx.ackTx_queued n)
  · obtain ⟨framed, moves⟩ := s.client.call_drives (fun n same => acks ⟨n, same⟩) orderly.framed
    exact ⟨framed, stands, moves.disciplined orderly.disciplined⟩

theorem Session.Orderly.step {s : Session} (orderly : s.Orderly) (call : SessionCall) :
    (s.step call).1.Orderly := by
  cases call with
  | beginHandshake => exact orderly.begin
  | call call => exact orderly.call call

/-- The events that a call reads; a drain reads what polling the same bytes would. -/
def ClientCall.reads (w : WsClient) : ClientCall → List Event
  | .pollEvent =>
      match w.pollEvent.2 with
      | some (.ok event) => [event]
      | some (.error _) | none => []
  | .drain _ => w.pollAll.2.1
  | .drainFromIngress _ bytes => (w.clearAfterEmit.feedRecv bytes).pollAll.2.1
  | .feedRecv _ | .ackTx _ | .sendText _ | .sendBinary _ | .sendPing _ | .sendPong _
  | .sendClose _ _ => []

/-- The frame of a send, unless it was refused. -/
def sent (opcode : OpCode) (payload : Bytes) : Except WsError Unit → List OutFrame
  | .ok () => [⟨true, opcode, payload⟩]
  | .error _ => []

/-- The frames that a call has to queue. -/
def ClientCall.Requests (w : WsClient) (added : List OutFrame) : ClientCall → Prop
  | .sendText payload => added = sent .text payload (w.sendText payload).2
  | .sendBinary payload => added = sent .binary payload (w.sendBinary payload).2
  | .sendPing payload => added = sent .ping payload (w.sendPing payload).2
  | .sendPong payload => added = sent .pong payload (w.sendPong payload).2
  | .sendClose code reason =>
      -- a second Close is not sent
      added = if w.state = .isOpen then
        sent .close (encodeClosePayload code reason) (w.sendClose code reason).2 else []
  | call =>
      Answers w.config w.state (w.call call).1.state (call.reads w) (w.call call).2 added

def SessionCall.Requests (s : Session) (added : List OutFrame) : SessionCall → Prop
  | .beginHandshake => added = []
  | .call made => made.Requests s.client added

omit [AcceptDigest] in
theorem sendFrame_sent (w : WsClient) (opcode : OpCode) (payload : Bytes) :
    (w.sendFrame opcode payload).1.tx.outbound =
      w.tx.outbound ++ sent opcode payload (w.sendFrame opcode payload).2 := by
  unfold WsClient.sendFrame
  split
  next => simp [sent]
  next => simp [sent, WsClient.writeFrame]

omit [AcceptDigest] in
theorem sendClose_sent (w : WsClient) (code : Nat) (reason : Bytes) :
    (w.sendClose code reason).1.tx.outbound =
      w.tx.outbound ++ if w.state = .isOpen then
        sent .close (encodeClosePayload code reason) (w.sendClose code reason).2 else [] := by
  unfold WsClient.sendClose
  split
  next ending => rcases ending with state | state <;> simp [state]
  next =>
    split
    next => simp
    next isOpen =>
      rw [ne_eq, Decidable.not_not] at isOpen
      rw [if_pos isOpen]
      repeat' split
      all_goals simp [sent, WsClient.writeFrame]

/-- Every call queues the frames it has to. -/
theorem call_requests {w : WsClient} (stands : w.Ready ∨ w.state.Ending) (call : ClientCall) :
    ∃ added, (w.call call).1.tx.outbound = w.tx.outbound ++ added ∧ call.Requests w added := by
  cases call with
  | feedRecv bytes => exact ⟨[], by simp [WsClient.call, WsClient.feedRecv], .nothing _ _ _⟩
  | pollEvent =>
      have reacts := w.pollEvent_reacts
      unfold ClientCall.Requests ClientCall.reads WsClient.call
      dsimp only
      generalize w.pollEvent = out at reacts
      obtain ⟨w', none | event | event⟩ := out
      · exact reacts.reacts.answers
      · exact reacts.answers
      · exact reacts.answers
  | drain kind =>
      cases kind with
      | events => exact drain_answers dataEventOps_lawful stands (fun _ => rfl) 0
      | batches =>
          exact drain_answers dataEventBatchOps_lawful stands
            ((dataEventBatchOps_settled_iff _).mpr rfl) 0
      | marked baseMeta clock sequence =>
          exact drain_answers (markedDataEventOps_lawful baseMeta) stands (fun _ => rfl) 0
      | markedBatches baseMeta clock sequence =>
          exact drain_answers (markedDataEventBatchOps_lawful baseMeta) stands
            ((markedDataEventBatchOps_settled_iff baseMeta _).mpr rfl) 0
  | drainFromIngress kind bytes =>
      cases kind with
      | events =>
          exact drainFromIngress_answers dataEventOps_lawful stands (fun _ => rfl) bytes
      | batches =>
          exact drainFromIngress_answers dataEventBatchOps_lawful stands
            ((dataEventBatchOps_settled_iff _).mpr rfl) bytes
      | marked baseMeta clock sequence =>
          exact drainFromIngress_answers (markedDataEventOps_lawful baseMeta) stands (fun _ => rfl)
            bytes
      | markedBatches baseMeta clock sequence =>
          exact drainFromIngress_answers (markedDataEventBatchOps_lawful baseMeta) stands
            ((markedDataEventBatchOps_settled_iff baseMeta _).mpr rfl) bytes
  | sendText payload =>
      refine ⟨_, ?_, rfl⟩
      simp only [WsClient.call, WsClient.sendText]
      split
      next => simp [sent]
      next => exact sendFrame_sent w .text payload
  | sendBinary payload => exact ⟨_, sendFrame_sent w .binary payload, rfl⟩
  | sendPing payload =>
      refine ⟨_, ?_, rfl⟩
      simp only [WsClient.call, WsClient.sendPing]
      split
      next => simp [sent]
      next => exact sendFrame_sent w .ping payload
  | sendPong payload =>
      refine ⟨_, ?_, rfl⟩
      simp only [WsClient.call, WsClient.sendPong]
      split
      next => simp [sent]
      next => exact sendFrame_sent w .pong payload
  | sendClose code reason => exact ⟨_, sendClose_sent w code reason, rfl⟩
  | ackTx n =>
      refine ⟨[], ?_, .nothing _ _ _⟩
      simp [WsClient.call, WsClient.ackTx, TxQueue.outbound]

/-! ## Closing -/

omit [AcceptDigest] in
theorem sendFrame_ending {w : WsClient} (ending : w.state.Ending) (opcode : OpCode)
    (payload : Bytes) : (w.sendFrame opcode payload).1 = w := by
  simp [WsClient.sendFrame, WsClient.assertCanSendData, ending.ne_open]

/-- A client that is closing or closed sends nothing for its caller. -/
theorem send_ending {w : WsClient} (ending : w.state.Ending) {call : ClientCall}
    (sends : call.IsSend) : (w.call call).1 = w := by
  cases call with
  | sendText payload =>
      simp only [WsClient.call, WsClient.sendText]
      split
      next => rfl
      next => exact sendFrame_ending ending .text payload
  | sendBinary payload => exact sendFrame_ending ending .binary payload
  | sendPing payload =>
      simp only [WsClient.call, WsClient.sendPing]
      split
      next => rfl
      next => exact sendFrame_ending ending .ping payload
  | sendPong payload =>
      simp only [WsClient.call, WsClient.sendPong]
      split
      next => rfl
      next => exact sendFrame_ending ending .pong payload
  | sendClose code reason =>
      have ended : w.state = .closing ∨ w.state = .closed := by
        cases state : w.state <;> simp_all [ConnState.Ending, ConnState.rank]
      simp [WsClient.call, WsClient.sendClose, ended]
  | feedRecv _ | pollEvent | drain _ | drainFromIngress _ _ | ackTx _ => exact sends.elim

omit [AcceptDigest] in
/-- The same of the Close frame at any position. -/
theorem Wire.Disciplined.close {wire : Wire} (disciplined : wire.Disciplined)
    {before after : List OutFrame} {close : OutFrame}
    (queued : wire.tx.outbound = before ++ close :: after) (isClose : close.opcode = .close) :
    wire.state.Ending ∧ close.IsClose ∧ (∀ frame ∈ before, frame.opcode ≠ .close) ∧
      ∀ frame ∈ after, frame.opcode = .pong := by
  obtain none | ⟨ending, front, last, pongs, sent, valid, clear, only⟩ := disciplined.ordered
  · refine absurd isClose (none close ?_)
    simp [queued]
  · -- a Close frame in front of `last` or behind it would be a second one
    rw [queued] at sent
    obtain ⟨more, front', rest⟩ | ⟨more, before', rest⟩ := List.append_eq_append_iff.mp sent
    · cases more with
      | nil =>
          simp only [List.nil_append, List.cons.injEq] at rest
          obtain ⟨rfl, rfl⟩ := rest
          rw [List.append_nil] at front'
          exact ⟨ending, valid, front' ▸ clear, only⟩
      | cons other more =>
          simp only [List.cons_append, List.cons.injEq] at rest
          obtain ⟨rfl, -⟩ := rest
          refine absurd isClose (clear close ?_)
          simp [front']
    · cases more with
      | nil =>
          simp only [List.nil_append, List.cons.injEq] at rest
          obtain ⟨rfl, rfl⟩ := rest
          rw [List.append_nil] at before'
          exact ⟨ending, valid, before' ▸ clear, only⟩
      | cons other more =>
          simp only [List.cons_append, List.cons.injEq] at rest
          obtain ⟨-, rfl⟩ := rest
          have pong := only close (by simp)
          rw [isClose] at pong
          cases pong

end Sessions

namespace Sample

attribute [local instance] digest

/-- A session after its upgrade. -/
def session : Session :=
  (sessionMachine.run ⟨created, []⟩
    [.beginHandshake, .call (.drainFromIngress .events response)]).1

end Sample

section Closing

attribute [local instance] Sample.digest

end Closing

section Transmission

variable [AcceptDigest]

/-! ## Transmission -/

/-- The caller acknowledges bytes that are there, and no slice is longer than `isize::MAX`. -/
def Session.Callable (s : Session) : SessionCall → Prop
  | .call (.ackTx n) => n ≤ s.client.pendingTx.length
  | .call (.sendText payload) | .call (.sendBinary payload) => payload.length < 2 ^ 63
  | _ => True

instance Session.Callable.decidable (s : Session) :
    (call : SessionCall) → Decidable (s.Callable call)
  | .call (.ackTx n) => inferInstanceAs (Decidable (n ≤ s.client.pendingTx.length))
  | .call (.sendText payload) => inferInstanceAs (Decidable (payload.length < 2 ^ 63))
  | .call (.sendBinary payload) => inferInstanceAs (Decidable (payload.length < 2 ^ 63))
  | .beginHandshake | .call (.feedRecv _) | .call .pollEvent | .call (.drain _)
  | .call (.drainFromIngress _ _) | .call (.sendPing _) | .call (.sendPong _)
  | .call (.sendClose _ _) => .isTrue trivial

/-- The frames that a run of calls has to queue, call by call. -/
inductive Requested : Session → List SessionCall → List OutFrame → Prop where
  | nil (s : Session) : Requested s [] []
  | cons {s : Session} {call : SessionCall} {calls : List SessionCall}
      {added frames : List OutFrame} :
      call.Requests s added → Requested (s.step call).1 calls frames →
      Requested s (call :: calls) (added ++ frames)

/-- The upgrade request of a client. -/
def WsClient.upgradeRequest (w : WsClient) : Bytes :=
  encodeUpgradeRequest
    ⟨w.config.host, w.config.path, w.clientKey, w.config.subprotocols, w.config.origin⟩

/-- What a receiver makes of the bytes of a frame. -/
def OutFrame.ReadsBack (frame : OutFrame) (key : MaskKey) : Prop :=
  ∃ size, (frame.encode key).length = size + frame.payload.length ∧
    (∀ rest, parseHeader (frame.encode key ++ rest) =
      .ok (some (⟨true, frame.opcode, some key, frame.payload.length⟩, size))) ∧
    maskInplace ((frame.encode key).drop size) key = frame.payload

omit [AcceptDigest] in
theorem OutFrame.Whole.readsBack {frame : OutFrame} (whole : frame.Whole)
    (addressable : frame.payload.length < 2 ^ 63) (key : MaskKey) : frame.ReadsBack key := by
  obtain ⟨fin, control⟩ := whole
  have allowed : HeaderAllowed frame.fin frame.opcode frame.payload.length :=
    ⟨addressable, fun isControl => ⟨fin, control isControl⟩⟩
  refine ⟨(encodeHeader frame.fin frame.opcode (some key) frame.payload.length).length, ?_, ?_, ?_⟩
  · simp [OutFrame.encode, maskInplace]
  · intro rest
    rw [OutFrame.encode, List.append_assoc, parseHeader_encodeHeader allowed, fin]
  · rw [OutFrame.encode, List.drop_left, maskInplace_maskInplace]

omit [AcceptDigest] in
theorem sent_addressable {opcode : OpCode} {payload : Bytes} {result : Except WsError Unit}
    {frame : OutFrame} (member : frame ∈ sent opcode payload result) :
    frame.opcode = opcode ∧ frame.payload = payload := by
  cases result with
  | error e => simp [sent] at member
  | ok _ =>
      obtain rfl := List.mem_singleton.mp member
      exact ⟨rfl, rfl⟩

omit [AcceptDigest] in
theorem Answers.control {config : WsConfig} {before after : ConnState} {events : List Event}
    {error : Option WsError} {added : List OutFrame}
    (answers : Answers config before after events error added) {frame : OutFrame}
    (member : frame ∈ added) : frame.opcode.isControl = true := by
  obtain ⟨farewell, rfl, ends⟩ := answers
  rcases List.mem_append.mp member with member | member
  · obtain ⟨event, -, member⟩ := List.mem_flatMap.mp member
    cases event with
    | ping payload =>
        simp only [Event.answer] at member
        split at member <;> simp_all [OpCode.isControl]
    | close code reason =>
        simp only [Event.answer] at member
        split at member <;> simp_all [OpCode.isControl]
    | handshakeComplete | text _ | binary _ | pong _ => simp [Event.answer] at member
  · cases error with
    | none => simp_all [Farewell]
    | some e =>
        simp only [Farewell] at ends
        split at ends
        next =>
          obtain ⟨reason, rfl⟩ := ends
          obtain rfl := List.mem_singleton.mp member
          rfl
        next => simp_all

/-- The frames of an admitted call are short enough for their header. -/
theorem SessionCall.Requests.addressable {s : Session} {call : SessionCall}
    {added : List OutFrame} (requests : call.Requests s added) (callable : s.Callable call)
    {frame : OutFrame} (member : frame ∈ added) (whole : frame.Whole) :
    frame.payload.length < 2 ^ 63 := by
  have control (isControl : frame.opcode.isControl = true) : frame.payload.length < 2 ^ 63 := by
    have short := whole.2 isControl
    rw [maxControlPayload] at short
    omega
  cases call with
  | beginHandshake =>
      cases requests
      simp at member
  | call call =>
      cases call with
      | sendText payload =>
          cases requests
          rw [(sent_addressable member).2]
          exact callable
      | sendBinary payload =>
          cases requests
          rw [(sent_addressable member).2]
          exact callable
      | sendPing payload =>
          cases requests
          exact control (by rw [(sent_addressable member).1]; rfl)
      | sendPong payload =>
          cases requests
          exact control (by rw [(sent_addressable member).1]; rfl)
      | sendClose code reason =>
          cases requests
          split at member
          next => exact control (by rw [(sent_addressable member).1]; rfl)
          next => simp at member
      | feedRecv _ | pollEvent | drain _ | drainFromIngress _ _ | ackTx _ =>
          exact control (Answers.control requests member)

/-- One call: what was acknowledged or waits to be sent grows by whole frames. -/
theorem session_step_transmits {s : Session} (orderly : s.Orderly) (sound : s.client.tx.Sound)
    (started : s.client.handshakeStarted = true) {call : SessionCall} (callable : s.Callable call) :
    let s' := (s.step call).1
    s'.client.tx.Sound ∧ s'.client.handshakeStarted = true ∧
      ∃ frames : List (OutFrame × MaskKey),
        s'.acked ++ s'.client.pendingTx = s.acked ++ s.client.pendingTx ++ framesOnWire frames ∧
        call.Requests s (frames.map Prod.fst) ∧ ∀ entry ∈ frames, entry.1.ReadsBack entry.2 ∧
          entry.1.fin = true := by
  dsimp only
  cases call with
  | beginHandshake =>
      obtain same | ⟨tx, -, -, fresh, -⟩ := s.client.beginHandshake_cases
      · simp only [Session.step, same]
        exact ⟨sound, started, [], by simp [framesOnWire], rfl, by simp⟩
      · rw [started] at fresh
        cases fresh
  | call call =>
      by_cases acks : ∃ n, call = .ackTx n
      · obtain ⟨n, rfl⟩ := acks
        obtain ⟨sound', whole⟩ := TxQueue.ackTx_spec sound callable
        refine ⟨sound', started, [], ?_, .nothing _ _ _, by simp⟩
        simp only [Session.step, ClientCall.acknowledges, WsClient.call, framesOnWire,
          List.flatMap_nil, List.append_nil, List.append_assoc]
        exact congrArg (s.acked ++ ·) whole
      · obtain ⟨-, moves⟩ :=
          s.client.call_drives (fun n same => acks ⟨n, same⟩) orderly.framed
        obtain ⟨sound', frames, queued, pending, whole⟩ := moves.extends sound
        obtain ⟨added, outbound, requests⟩ := call_requests orderly.stands call
        have same : frames.map Prod.fst = added := by
          rw [TxQueue.outbound, queued, List.map_append, TxQueue.outbound] at outbound
          exact List.append_cancel_left outbound
        have silent : call.acknowledges s.client = [] := by
          cases call with
          | ackTx n => exact absurd ⟨n, rfl⟩ acks
          | feedRecv _ | pollEvent | drain _ | drainFromIngress _ _ | sendText _ | sendBinary _
          | sendPing _ | sendPong _ | sendClose _ _ => rfl
        subst same
        refine ⟨sound', moves.started.trans started, frames, ?_, requests, ?_⟩
        · simp only [Session.step, silent, List.append_nil, List.append_assoc]
          exact congrArg (s.acked ++ ·) pending
        · intro entry member
          have requested : SessionCall.Requests s (frames.map Prod.fst) (.call call) := requests
          have addressable := requested.addressable callable
            (List.mem_map_of_mem (f := Prod.fst) member) (whole entry member)
          exact ⟨(whole entry member).readsBack addressable entry.2, (whole entry member).1⟩

/-- A run of calls. -/
theorem session_run_transmits {s : Session} (orderly : s.Orderly) (sound : s.client.tx.Sound)
    (started : s.client.handshakeStarted = true) (calls : List SessionCall)
    (admitted : sessionMachine.Admitted Session.Callable s calls) :
    let s' := (sessionMachine.run s calls).1
    ∃ frames : List (OutFrame × MaskKey),
      s'.acked ++ s'.client.pendingTx = s.acked ++ s.client.pendingTx ++ framesOnWire frames ∧
      Requested s calls (frames.map Prod.fst) ∧
      ∀ entry ∈ frames, entry.1.ReadsBack entry.2 ∧ entry.1.fin = true := by
  dsimp only
  induction calls generalizing s with
  | nil => exact ⟨[], by simp [framesOnWire], .nil s, by simp⟩
  | cons call calls ih =>
      obtain ⟨callable, rest⟩ := admitted
      obtain ⟨sound', started', frames, bytes, requests, reads⟩ :=
        session_step_transmits orderly sound started callable
      obtain ⟨more, bytes', requests', reads'⟩ := ih (orderly.step call) sound' started' rest
      refine ⟨frames ++ more, ?_, ?_, ?_⟩
      · rw [Machine.run_cons]
        refine bytes'.trans ?_
        show (s.step call).1.acked ++ (s.step call).1.client.pendingTx ++ _ = _
        rw [bytes, framesOnWire_append, List.append_assoc]
      · rw [List.map_append]
        exact .cons requests requests'
      · intro entry member
        exact (List.mem_append.mp member).elim (reads entry) (reads' entry)

/-- A client whose request is queued has nothing else to send. -/
theorem WsClient.Begun.pending {w : WsClient} (begun : w.Begun) :
    Session.Orderly ⟨w, []⟩ ∧ w.tx.Sound ∧ w.handshakeStarted = true ∧
      w.pendingTx = w.upgradeRequest := by
  obtain ⟨config, rng, created, made, started⟩ := begun
  have initial : sessionMachine.initial ⟨created, []⟩ := ⟨⟨config, rng, made⟩, rfl⟩
  have orderly := (Session.Orderly.start initial).begin
  obtain ⟨-, -, connecting, -, buf, head, fresh⟩ := newClient_fresh made
  have same : created.beginHandshake.1 = w := by rw [started]
  simp only [Session.step, same] at orderly
  have idle : created.tx.compactTxIfNeeded 256 = created.tx := by
    simp [TxQueue.compactTxIfNeeded, head]
  simp only [WsClient.beginHandshake, connecting, ne_eq, not_true_eq_false, if_false, fresh,
    Bool.false_eq_true, idle, Prod.mk.injEq, and_true] at started
  subst started
  have empty : created.tx.Sound := by simp [TxQueue.Sound, head]
  obtain ⟨sound, pending⟩ := TxQueue.extend_spec empty
    (encodeUpgradeRequest ⟨created.config.host, created.config.path, created.clientKey,
      created.config.subprotocols, created.config.origin⟩)
  refine ⟨orderly, sound, rfl, ?_⟩
  rw [WsClient.pendingTx, pending, TxQueue.pendingTx, buf, List.drop_nil, List.nil_append]
  rfl

/-- Everything a client transmits is its upgrade request and, in the order of the calls, one frame
for every send, automatic pong and close; each frame reads back as what was asked for. -/
theorem transmitted_well_formed {w : WsClient} (begun : w.Begun) (calls : List SessionCall)
    (admitted : sessionMachine.Admitted Session.Callable ⟨w, []⟩ calls) :
    let s := (sessionMachine.run ⟨w, []⟩ calls).1
    ∃ frames : List (OutFrame × MaskKey),
      s.acked ++ s.client.pendingTx = w.upgradeRequest ++ framesOnWire frames ∧
      Requested ⟨w, []⟩ calls (frames.map Prod.fst) ∧
      ∀ entry ∈ frames, entry.1.ReadsBack entry.2 ∧ entry.1.fin = true := by
  obtain ⟨orderly, sound, started, pending⟩ := begun.pending
  obtain ⟨frames, bytes, requested, reads⟩ :=
    session_run_transmits orderly sound started calls admitted
  refine ⟨frames, ?_, requested, reads⟩
  rw [bytes, List.nil_append]
  exact congrArg (· ++ _) pending

end Transmission

section Transmitting

attribute [local instance] Sample.digest

/-- A text message after the upgrade, and the acknowledgement of half the request. -/
theorem transmitted_well_formed_text :
    let calls : List SessionCall :=
      [.call (.drainFromIngress .events Sample.response), .call (.sendText [0x41]),
        .call (.ackTx 60)]
    let s := (sessionMachine.run ⟨Sample.client, []⟩ calls).1
    sessionMachine.Admitted Session.Callable ⟨Sample.client, []⟩ calls ∧
      ∃ frames : List (OutFrame × MaskKey),
        s.acked ++ s.client.pendingTx = Sample.client.upgradeRequest ++ framesOnWire frames ∧
        Requested ⟨Sample.client, []⟩ calls (frames.map Prod.fst) ∧
        ∀ entry ∈ frames, entry.1.ReadsBack entry.2 ∧ entry.1.fin = true := by
  have admitted : sessionMachine.Admitted Session.Callable ⟨Sample.client, []⟩
      [.call (.drainFromIngress .events Sample.response), .call (.sendText [0x41]),
        .call (.ackTx 60)] := by decide +kernel
  exact ⟨admitted, transmitted_well_formed Sample.client_begun _ admitted⟩

end Transmitting

end Talaris.Ws
