import Talaris.Basis.Blocks
import Talaris.Ws.Uses

/-!
# What the peer reads

The peer cuts the bytes of a client into frames again and unmasks them.  Text, binary and Ping
frames are only sent for the user; what the client sends of its own accord is a Pong or a Close
frame (`Mute`).
-/

namespace Talaris.Ws

open Talaris.Basis

/-! ## The reader -/

/-- The payload of a frame behind its mask. -/
def FrameHeader.unmask (h : FrameHeader) (payload : Bytes) : Bytes :=
  match h.mask with
  | none => payload
  | some key => maskInplace payload key

/-- The first frame of a stream and its size, as soon as it is there as a whole. -/
def firstFrame (stream : Bytes) : Option (OutFrame × Nat) :=
  match parseHeader stream with
  | .ok (some (h, headerLen)) =>
      let frameLen := headerLen + h.payloadLen
      if frameLen ≤ stream.length then
        some (⟨h.fin, h.opcode, h.unmask ((stream.take frameLen).drop headerLen)⟩, frameLen)
      else none
  | .ok none | .error _ => none

/-- The frames in the bytes that a peer has got. -/
def peerReads (stream : Bytes) : List OutFrame := readBlocks firstFrame stream

theorem firstFrame_nil : firstFrame [] = none := rfl

/-- A frame delimits itself. -/
theorem OutFrame.ReadsBack.delimits {frame : OutFrame} {key : MaskKey} (reads : frame.ReadsBack key)
    (fin : frame.fin = true) : Delimits firstFrame (frame.encode key) frame := by
  obtain ⟨size, length, parsed, payload⟩ := reads
  have parsed_whole := parsed []
  rw [List.append_nil] at parsed_whole
  constructor
  case nonempty =>
    intro empty
    rw [empty] at parsed_whole
    cases parsed_whole
  case whole =>
    intro rest
    have there : (frame.encode key).length ≤ (frame.encode key ++ rest).length := by simp
    simp only [firstFrame, parsed rest, ← length, there, if_true, List.take_left,
      FrameHeader.unmask, payload]
    rw [← fin]
  case part =>
    intro front within short
    obtain ⟨rest, whole⟩ := within
    unfold firstFrame
    split
    next h headerLen found =>
      have settled : parseHeader front ≠ .ok none := by simp [found]
      have same := parseHeader_append settled rest
      rw [whole, parsed_whole, found] at same
      simp only [Except.ok.injEq, Option.some.injEq, Prod.mk.injEq] at same
      obtain ⟨rfl, rfl⟩ := same
      exact if_neg (by dsimp only; omega)
    next => rfl
    next => rfl

/-- What a peer reads of the bytes of some frames. -/
theorem peerReads_frames {frames : List (OutFrame × MaskKey)}
    (reads : ∀ entry ∈ frames, entry.1.ReadsBack entry.2 ∧ entry.1.fin = true) {stream : Bytes}
    (within : stream <+: framesOnWire frames) :
    peerReads stream <+: frames.map Prod.fst ∧
      (stream = framesOnWire frames → peerReads stream = frames.map Prod.fst) := by
  let codes := frames.map fun entry => (entry.1.encode entry.2, entry.1)
  have wire : framesOnWire frames = codes.flatMap Prod.fst := by
    simp [codes, framesOnWire, List.flatMap_map]
  have blocks : frames.map Prod.fst = codes.map Prod.snd := by simp [codes, Function.comp_def]
  have delimited : ∀ entry ∈ codes, Delimits firstFrame entry.1 entry.2 := by
    intro entry member
    obtain ⟨frame, inside, rfl⟩ := List.mem_map.mp member
    exact (reads frame inside).1.delimits (reads frame inside).2
  rw [wire] at within ⊢
  rw [blocks]
  refine ⟨readBlocks_front delimited firstFrame_nil within, ?_⟩
  rintro rfl
  exact readBlocks_codes delimited firstFrame_nil

/-! ## Frames of the user -/

/-- A frame that the client does not send of its own accord. -/
def OutFrame.spoken (frame : OutFrame) : Bool :=
  match frame.opcode with
  | .continuation | .text | .binary | .ping => true
  | .close | .pong => false

/-- The frames that the client has sent for its user. -/
def WsClient.said (w : WsClient) : List OutFrame := w.tx.outbound.filter OutFrame.spoken

theorem Answers.unspoken {config : WsConfig} {before after : ConnState} {events : List Event}
    {error : Option WsError} {added : List OutFrame}
    (answers : Answers config before after events error added) {frame : OutFrame}
    (member : frame ∈ added) : frame.spoken = false := by
  obtain ⟨farewell, rfl, ends⟩ := answers
  rcases List.mem_append.mp member with answer | goodbye
  · obtain ⟨event, -, answer⟩ := List.mem_flatMap.mp answer
    cases event with
    | ping payload =>
        simp only [Event.answer] at answer
        split at answer <;> simp_all [OutFrame.spoken]
    | close code reason =>
        simp only [Event.answer] at answer
        split at answer <;> simp_all [OutFrame.spoken]
    | handshakeComplete | text _ | binary _ | pong _ => simp [Event.answer] at answer
  · cases error with
    | none => simp_all [Farewell]
    | some e =>
        simp only [Farewell] at ends
        split at ends
        next =>
          obtain ⟨reason, rfl⟩ := ends
          obtain rfl := List.mem_singleton.mp goodbye
          rfl
        next => simp_all

theorem Wire.Move.adds {wire wire' : Wire} (move : Wire.Move wire wire') :
    ∃ added, wire'.tx.queued = wire.tx.queued ++ added ∧ ∀ entry ∈ added, entry.1.Whole := by
  have written (tx : TxQueue) (opcode : OpCode) (payload : Bytes)
      (short : opcode.isControl = true → payload.length ≤ maxControlPayload) :
      ∃ added, (tx.writeFrame true opcode payload).queued = tx.queued ++ added ∧
        ∀ entry ∈ added, entry.1.Whole := by
    refine ⟨[(⟨true, opcode, payload⟩, tx.nextMask.1)], ?_, ?_⟩
    · simp [TxQueue.writeFrame, TxQueue.extend, TxQueue.compactTxIfNeeded_queued,
        TxQueue.nextMask_queued]
    · intro entry member
      obtain rfl := List.mem_singleton.mp member
      exact ⟨rfl, short⟩
  cases move with
  | opened tx | ended state tx => exact ⟨[], (List.append_nil _).symm, by simp⟩
  | sent tx opcode payload notClose short => exact written tx opcode payload short
  | ponged state tx payload live short => exact written tx .pong payload fun _ => short
  | closed tx code reason allowed short =>
      refine written tx .close (encodeClosePayload code reason) fun _ => ?_
      rw [encodeClosePayload_length, maxControlPayload]
      omega

namespace WsClient

variable {w w' w'' : WsClient}

theorem Moves.adds (moves : w.Moves w') :
    ∃ added, w'.tx.queued = w.tx.queued ++ added ∧ ∀ entry ∈ added, entry.1.Whole := by
  have path := moves.path
  generalize finish : Wire.mk w'.state w'.tx = last at path
  have reached : ∃ added, last.tx.queued = w.tx.queued ++ added ∧
      ∀ entry ∈ added, entry.1.Whole := by
    clear finish
    induction path with
    | refl => exact ⟨[], (List.append_nil _).symm, by simp⟩
    | tail _ move ih =>
        obtain ⟨added, queued, whole⟩ := ih
        obtain ⟨more, queued', whole'⟩ := move.adds
        refine ⟨added ++ more, ?_, ?_⟩
        · rw [queued', queued, List.append_assoc]
        · intro entry member
          exact (List.mem_append.mp member).elim (whole entry) (whole' entry)
  rw [← finish] at reached
  exact reached

/-- What is queued on the way is whole, and nothing of it is sent for the user. -/
def Mute (w w' : WsClient) : Prop :=
  w.Framed → w'.Framed ∧ ∃ added, w'.tx.queued = w.tx.queued ++ added ∧
    ∀ entry ∈ added, entry.1.Whole ∧ entry.1.spoken = false

theorem Mute.refl (w : WsClient) : w.Mute w := fun framed =>
  ⟨framed, [], (List.append_nil _).symm, by simp⟩

theorem Mute.trans (first : w.Mute w') (second : w'.Mute w'') : w.Mute w'' := by
  intro framed
  obtain ⟨framed', added, queued, mute⟩ := first framed
  obtain ⟨framed'', more, queued', mute'⟩ := second framed'
  refine ⟨framed'', added ++ more, ?_, ?_⟩
  · rw [queued', queued, List.append_assoc]
  · intro entry member
    exact (List.mem_append.mp member).elim (mute entry) (mute' entry)

/-- Frames that are all unspoken. -/
theorem Drives.mute (drives : w.Drives w') {frames : List OutFrame}
    (outbound : w'.tx.outbound = w.tx.outbound ++ frames)
    (unspoken : ∀ frame ∈ frames, frame.spoken = false) : w.Mute w' := by
  intro framed
  obtain ⟨framed', moves⟩ := drives framed
  obtain ⟨added, queued, whole⟩ := moves.adds
  have same : added.map Prod.fst = frames := by
    rw [TxQueue.outbound, queued, List.map_append, TxQueue.outbound] at outbound
    exact List.append_cancel_left outbound
  refine ⟨framed', added, queued, fun entry member => ⟨whole entry member, ?_⟩⟩
  exact unspoken entry.1 (same ▸ List.mem_map_of_mem member)

/-- Nothing is queued. -/
theorem Drives.silent (drives : w.Drives w') (tx : w'.tx = w.tx) : w.Mute w' := by
  have none : w'.tx.outbound = w.tx.outbound ++ [] := by rw [tx, List.append_nil]
  exact drives.mute none (by simp)

theorem Reacts.mute {events : List Event} {error : Option WsError}
    (reacts : w.Reacts w' events error) (drives : w.Drives w') : w.Mute w' := by
  obtain ⟨added, outbound, answers⟩ := reacts.answers
  exact drives.mute outbound fun frame member => answers.unspoken member

theorem sendClose_mute (w : WsClient) (code : Nat) (reason : Bytes) :
    w.Mute (w.sendClose code reason).1 := by
  apply (w.sendClose_drives code reason).mute (sendClose_sent w code reason)
  intro frame member
  split at member
  next =>
    rw [OutFrame.spoken, (sent_addressable member).1]
  next => cases member

theorem beginHandshake_mute (w : WsClient) : w.Mute w.beginHandshake.1 := by
  intro framed
  obtain same | ⟨tx, begun, -, -, queued⟩ := w.beginHandshake_cases
  · rw [same]
    exact Mute.refl w framed
  · rw [begun]
    exact ⟨framed.of_same ⟨rfl, rfl, rfl⟩, [], by simp [queued], by simp⟩

theorem ackTx_mute (w : WsClient) (n : Nat) : w.Mute (w.ackTx n) := fun framed =>
  ⟨framed.of_same ⟨rfl, rfl, rfl⟩, [], by simp [ackTx], by simp⟩

variable [AcceptDigest]

theorem mute_respected : Respected Mute where
  refl := .refl
  trans := .trans
  clear w := w.clearAfterEmit_drives.silent w.clearAfterEmit_tx
  feed w bytes := (w.feedRecv_drives bytes).silent rfl
  turn {w} _ := by
    have reacts := w.pollTurn_reacts
    have drives := w.pollTurn_drives
    generalize w.pollTurn = turned at reacts drives
    obtain ⟨w', turn⟩ := turned
    cases turn with
    | again => exact reacts.reacts.mute drives
    | done result =>
        obtain _ | event | e := result
        · exact reacts.reacts.mute drives
        · exact reacts.mute drives
        · exact reacts.mute drives
  read {w} rest cleared isOpen idle :=
    (drives_respected.read rest cleared isOpen idle).silent rfl
  refuse {w} e cleared isOpen idle := by
    have drives := drives_respected.refuse e cleared isOpen idle
    have closed (code : Nat) (reason : String) (drives : w.Drives (w.queueClose code reason)) :
        w.Mute (w.queueClose code reason) := by
      apply drives.mute (queueClose_sends isOpen code reason)
      intro frame member
      rw [List.mem_singleton.mp member]
      rfl
    cases e <;> exact closed _ _ drives

end WsClient

end Talaris.Ws
