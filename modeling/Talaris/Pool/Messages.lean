import Talaris.Pool.Sending
import Talaris.Pool.Visits
import Talaris.Ws.MaskPool
import Talaris.Ws.Peer

/-!
# Messages of the user

A message that the user sends becomes a frame of the client, bytes of the line, and bytes that the
kernel accepts.  The peer of a plain connection that reads these bytes reads the messages again:
each once, in the order of the sends, with nothing of anyone else in between
(`peer_reads_what_was_said`).
-/

namespace Talaris

open Talaris.Basis
open Talaris.Ws

/-! ## Sends -/

namespace SendCall

def opcode : SendCall → OpCode
  | text _ => .text
  | binary _ => .binary
  | ping _ => .ping
  | pong _ => .pong

def payload : SendCall → Bytes
  | text payload | binary payload | ping payload | pong payload => payload

/-- The frame that a send asks for. -/
def frame (what : SendCall) : OutFrame := ⟨true, what.opcode, what.payload⟩

theorem run_drives (what : SendCall) (w : WsClient) : w.Drives (what.run w).1 := by
  cases what with
  | text payload => exact w.sendText_drives payload
  | binary payload => exact w.sendBinary_drives payload
  | ping payload => exact w.sendPing_drives payload
  | pong payload => exact w.sendPong_drives payload

/-- A send queues its frame, unless it is refused. -/
theorem run_sent (what : SendCall) (w : WsClient) :
    (what.run w).1.tx.outbound =
      w.tx.outbound ++ sent what.opcode what.payload (what.run w).2 := by
  cases what with
  | text payload =>
      simp only [run, WsClient.sendText]
      split
      next => simp [sent]
      next => exact sendFrame_sent w .text payload
  | binary payload => exact sendFrame_sent w .binary payload
  | ping payload =>
      simp only [run, WsClient.sendPing]
      split
      next => simp [sent]
      next => exact sendFrame_sent w .ping payload
  | pong payload =>
      simp only [run, WsClient.sendPong]
      split
      next => simp [sent]
      next => exact sendFrame_sent w .pong payload

end SendCall

namespace Ws.WsClient

/-- The client has sent these frames for its user, and a peer reads back all that it has sent. -/
structure Voiced (w : WsClient) (said : List OutFrame) : Prop where
  framed : w.Framed
  said : w.said = said
  reads : ∀ entry ∈ w.tx.queued, entry.1.ReadsBack entry.2 ∧ entry.1.fin = true

namespace Voiced

variable {w w' : WsClient} {said : List OutFrame}

/-- Frames are queued. -/
theorem extend (voiced : w.Voiced said) (framed : w'.Framed) {added : List (OutFrame × MaskKey)}
    (queued : w'.tx.queued = w.tx.queued ++ added) (whole : ∀ entry ∈ added, entry.1.Whole)
    (addressable : ∀ entry ∈ added, entry.1.payload.length < 2 ^ 63) :
    w'.Voiced (said ++ (added.map Prod.fst).filter OutFrame.spoken) := by
  refine ⟨framed, ?_, fun entry member => ?_⟩
  · rw [WsClient.said, TxQueue.outbound, queued, List.map_append, List.filter_append, ← voiced.said]
    rfl
  · rw [queued] at member
    rcases List.mem_append.mp member with old | new
    · exact voiced.reads entry old
    · exact ⟨(whole entry new).readsBack (addressable entry new) entry.2, (whole entry new).1⟩

/-- The client says nothing of its own accord. -/
theorem mute (voiced : w.Voiced said) (mute : w.Mute w') : w'.Voiced said := by
  obtain ⟨framed, added, queued, silent⟩ := mute voiced.framed
  have unspoken : (added.map Prod.fst).filter OutFrame.spoken = [] := by
    rw [List.filter_eq_nil_iff]
    intro frame member
    obtain ⟨entry, inside, rfl⟩ := List.mem_map.mp member
    simp [(silent entry inside).2]
  have next := voiced.extend framed queued (fun entry member => (silent entry member).1) ?_
  · rwa [unspoken, List.append_nil] at next
  · intro entry member
    obtain ⟨⟨-, short⟩, unspoken⟩ := silent entry member
    have control : entry.1.opcode.isControl = true := by
      unfold OutFrame.spoken at unspoken
      split at unspoken
      next => cases unspoken
      next => cases unspoken
      next => cases unspoken
      next => cases unspoken
      next close => simp [close, OpCode.isControl]
      next pong => simp [pong, OpCode.isControl]
    have fits := short control
    rw [maxControlPayload] at fits
    omega

/-- The user sends. -/
theorem sends (voiced : w.Voiced said) (what : SendCall) (short : what.payload.length < 2 ^ 63) :
    (what.run w).1.Voiced
      (said ++ (sent what.opcode what.payload (what.run w).2).filter OutFrame.spoken) := by
  obtain ⟨framed, moves⟩ := what.run_drives w voiced.framed
  obtain ⟨added, queued, whole⟩ := moves.adds
  have same : added.map Prod.fst = sent what.opcode what.payload (what.run w).2 := by
    have outbound := what.run_sent w
    rw [TxQueue.outbound, queued, List.map_append, TxQueue.outbound] at outbound
    exact List.append_cancel_left outbound
  rw [← same]
  refine voiced.extend framed queued whole fun entry member => ?_
  have asked : entry.1 ∈ sent what.opcode what.payload (what.run w).2 :=
    same ▸ List.mem_map_of_mem member
  rw [(sent_addressable asked).2]
  exact short

theorem created [AcceptDigest] {config : WsConfig} {rng : SystemRandom}
    (made : WsClient.newClient config rng = .ok w) : w.Voiced [] := by
  obtain ⟨framed, -, -, queued, -⟩ := newClient_fresh made
  exact ⟨framed, by simp [WsClient.said, TxQueue.outbound, queued], by simp [queued]⟩

end Voiced

end Ws.WsClient

section Messages

variable [Rustls] [AcceptDigest]

omit [Rustls] in
theorem tended_mute : Tended WsClient.Mute where
  toRespected := WsClient.mute_respected
  begins := WsClient.beginHandshake_mute
  acks w := w.ackTx_mute _

/-! ## What the user says -/

/-- The frames of a step that the user sends on the connection with this token, pongs aside. -/
def System.tells (sys : System) (token : Nat) : PoolLabel → List OutFrame
  | .send h what =>
      if h.raw = token ∧ sys.idle = true ∧ (sys.pool.sendWith h what.run).2.toOption.isSome then
        [what.frame].filter OutFrame.spoken
      else []
  | _ => []

/-- What the user has sent in a run. -/
def System.said (token : Nat) : System → List PoolLabel → List OutFrame
  | _, [] => []
  | sys, label :: labels =>
      sys.tells token label ++ System.said token (poolMachine.step sys label).1 labels

/-- No slice is longer than `isize::MAX`. -/
def PoolLabel.addressable : PoolLabel → Bool
  | .send _ what => what.payload.length < 2 ^ 63
  | _ => true

/-- The clients of the connections with this token, and the frames that the user has sent there. -/
structure Voices (token : Nat) (said : List OutFrame) (sys : System) : Prop where
  unknown : (⟨token⟩ : ConnHandle) ∉ sys.handles → said = []
  voiced : ∀ i conn, sys.pool.connAt i = some conn → conn.token = token → conn.ws.Voiced said

namespace Voices

variable {sys : System} {token : Nat} {said : List OutFrame} {label : PoolLabel}

theorem opened (voices : Voices token said sys) (slots : Slots sys.pool sys.handles)
    (cfg : ConnectionConfig) (addr : SocketAddr) (opening : Opening) (blocking : Bool) :
    Voices token said (sys.openConn cfg addr opening blocking) := by
  rcases System.openConn_cases slots cfg addr opening blocking with
    ⟨slot, fresh, e, stock, -, same⟩ |
    ⟨slot, fresh, conn, rest, bgids, proactor, stock, made, -, free, -, generation, -, -, same⟩
  · rw [same]
    refine ⟨voices.unknown, fun j now here => ?_⟩
    rw [Pool.connAt_stocked] at here
    exact voices.voiced j now here
  · have unknown := (slots.stocked stock).fresh free generation
    have inside := ((slots.stocked stock).freeVacant conn.identity.connId (by simp [free])).1
    rw [same]
    constructor
    · intro never
      apply voices.unknown
      intro earlier
      apply never
      simp only [System.handles, List.filterMap_append, List.mem_append] at earlier ⊢
      exact .inl earlier
    · intro j now here tagged
      rcases Pool.connAt_occupied_cases inside here with ⟨-, rfl⟩ | ⟨-, there⟩
      · subst tagged
        rw [voices.unknown unknown]
        exact .created made.ws
      · rw [Pool.connAt_stocked] at there
        exact voices.voiced j now there tagged

theorem visited (voices : Voices token said sys) (slots : Slots sys.pool sys.handles)
    (short : label.addressable = true) (enabled : sys.enabled label = true) {sys' : System}
    {i : Nat} {conn conn' : ConnectionState} {consumed : List Completion} {items : List SinkItem}
    (turn : Turn sys sys' i conn conn' consumed items)
    (visit : Visit sys i conn label consumed conn' items) :
    Voices token (said ++ sys.tells token label) sys' := by
  have known := slots.seated i conn turn.found
  have effect := tended_mute.visit WsClient.sendClose_mute visit
  constructor
  · intro never
    rw [turn.handles] at never
    rw [voices.unknown never, List.nil_append]
    rcases effect with ⟨h, what, rfl, same, -⟩ | ⟨silent, -⟩
    · have other : h.raw ≠ token := by
        rintro rfl
        exact never (same ▸ known)
      simp [System.tells, other]
    · cases label with
      | send h what => exact absurd rfl (silent h what)
      | _ => rfl
  · intro j now here tagged
    rcases turn.cases here with ⟨rfl, rfl⟩ | ⟨slot, there⟩
    · have before := voices.voiced j conn turn.found (turn.token ▸ tagged)
      rcases effect with ⟨h, what, rfl, same, ws, answer⟩ | ⟨silent, mute⟩
      · have ours : h.raw = token := by rw [← same, ← turn.token, tagged]
        have idle : sys.idle = true := enabled
        have sends := before.sends what (by simpa [PoolLabel.addressable] using short)
        have tells : sys.tells token (.send h what) =
            (sent what.opcode what.payload (what.run conn.ws).2).filter OutFrame.spoken := by
          simp only [System.tells, ours, idle, ← answer, true_and]
          cases (what.run conn.ws).2 with
          | ok _ => rfl
          | error _ => rfl
        rw [tells, ws]
        exact sends
      · have tells : sys.tells token label = [] := by
          cases label with
          | send h what => exact absurd rfl (silent h what)
          | _ => rfl
        rw [tells, List.append_nil]
        exact before.mute mute
    · have tells : sys.tells token label = [] := by
        rcases effect with ⟨h, what, rfl, same, -⟩ | ⟨silent, -⟩
        · have other : h.raw ≠ token := by
            rintro rfl
            exact slot (slots.handle_unique there turn.found
              (congrArg ConnHandle.mk (tagged.trans same.symm)))
          simp [System.tells, other]
        · cases label with
          | send h what => exact absurd rfl (silent h what)
          | _ => rfl
      rw [tells, List.append_nil]
      exact voices.voiced j now there tagged

/-- One step of the machine. -/
theorem step (voices : Voices token said sys) (slots : Slots sys.pool sys.handles)
    (short : label.addressable = true) :
    Voices token (said ++ sys.tells token label) (poolMachine.step sys label).1 := by
  have silent (refused : ∀ h what, label = .send h what → sys.idle = true →
      (sys.pool.sendWith h what.run).2.toOption = none) : sys.tells token label = [] := by
    cases label with
    | send h what =>
        simp only [System.tells]
        split
        next sent => simp [refused h what rfl sent.2.1] at sent
        next => rfl
    | _ => rfl
  by_cases enabled : sys.enabled label = true
  · have outcome := System.step_outcome slots label
    generalize (poolMachine.step sys label).1 = sys' at outcome ⊢
    cases outcome with
    | same conns history driving refused =>
        have handles : sys'.handles = sys.handles := by
          rw [System.handles, history]
          rfl
        rw [silent fun h what is _ => refused h what is enabled, List.append_nil]
        refine ⟨fun never => voices.unknown (handles ▸ never), fun j now here => ?_⟩
        exact voices.voiced j now (conns j now here)
    | opened cfg addr opening blocking connects made =>
        rw [silent (by simp [connects]), List.append_nil, made]
        exact voices.opened slots cfg addr opening blocking
    | visited turn visit => exact voices.visited slots short enabled turn visit
  · have still : (poolMachine.step sys label).1 = sys := by
      simp only [poolMachine, if_neg enabled]
    rw [still, silent, List.append_nil]
    · exact voices
    · rintro h what rfl idle
      exact absurd idle enabled

/-- Before anything runs. -/
theorem initially (initial : poolMachine.initial sys) : Voices token [] sys := by
  obtain ⟨_, _, _, _, rfl⟩ := System.initial_spec initial
  exact ⟨fun _ => rfl, by simp [Pool.connAt]⟩

/-- A whole run. -/
theorem run (voices : Voices token said sys) (reached : poolMachine.Reach Machine.always sys)
    (labels : List PoolLabel)
    (short : poolMachine.Admitted (fun _ label => label.addressable = true) sys labels) :
    Voices token (said ++ sys.said token labels) (poolMachine.run sys labels).1 := by
  induction labels generalizing sys said with
  | nil =>
      rw [System.said, List.append_nil]
      exact voices
  | cons label labels ih =>
      obtain ⟨first, later⟩ := short
      have stepped := voices.step (System.slots_reach reached) first
      have rest := ih stepped (.next label reached trivial) later
      rw [List.append_assoc] at rest
      exact rest

end Voices

/-- The kernel completes the Sends of the connection as in `System.Sends`, and the user sends
slices. -/
structure System.Speaks (token : Nat) (sys : System) (label : PoolLabel) : Prop
    extends System.Sends token sys label where
  short : label.addressable = true

instance (token : Nat) (sys : System) (label : PoolLabel) : Decidable (sys.Speaks token label) :=
  decidable_of_iff (sys.Sends token label ∧ label.addressable = true)
    ⟨fun ⟨sends, short⟩ => ⟨sends, short⟩, fun speaks => ⟨speaks.toSends, speaks.short⟩⟩

/-- As long as a plain connection has not closed, its peer reads, behind the upgrade request, the
text, binary and Ping frames that the user has sent, in order and each once; all of them, as soon
as nothing waits in the line. -/
theorem peer_reads_what_was_said {start : System} (initial : poolMachine.initial start)
    {token : Nat} {labels : List PoolLabel}
    (speaks : poolMachine.Admitted (System.Speaks token) start labels) :
    let sys := (poolMachine.run start labels).1
    let accepted := start.accepted token labels
    ∀ i conn, sys.pool.connAt i = some conn → conn.token = token → conn.tls = none →
      conn.ws.handshakeStarted = true →
        let size := conn.ws.upgradeRequest.length
        let heard := (peerReads (accepted.drop size)).filter OutFrame.spoken
        accepted.take size <+: conn.ws.upgradeRequest ∧ heard <+: start.said token labels ∧
          (conn.waiting = [] → heard = start.said token labels) := by
  intro sys accepted i conn found same plain started
  have sends : poolMachine.Admitted (System.Sends token) start labels :=
    speaks.imp fun _ _ speaks => speaks.toSends
  have short : poolMachine.Admitted (fun _ label => label.addressable = true) start labels :=
    speaks.imp fun _ _ speaks => speaks.short
  have flowing : Flowing token accepted sys :=
    (Flowing.initially initial).run (.start initial) labels sends
  have voices : Voices token (start.said token labels) sys :=
    (Voices.initially initial).run (.start initial) labels short
  obtain ⟨-, said, reads⟩ := voices.voiced i conn found same
  obtain ⟨-, -, -, -, sent, total, line⟩ := flowing.flow i conn found same
  have written : conn.ws.upgradeRequest ++ framesOnWire conn.ws.tx.queued = sent ++ conn.waiting := by
    rw [← line.plain plain, WsClient.written, if_pos started]
  have taken : accepted <+: conn.ws.upgradeRequest ++ framesOnWire conn.ws.tx.queued := by
    rw [written, total]
    exact (List.prefix_append_right_inj sent).mpr ((List.take_prefix _ _).trans conn.front_prefix)
  have frames : accepted.drop conn.ws.upgradeRequest.length <+: framesOnWire conn.ws.tx.queued := by
    have cut := taken.drop conn.ws.upgradeRequest.length
    rwa [List.drop_left] at cut
  obtain ⟨first, all⟩ := peerReads_frames reads frames
  refine ⟨?_, ?_, fun empty => ?_⟩
  · have cut := taken.take conn.ws.upgradeRequest.length
    rwa [List.take_left] at cut
  · rw [← said]
    exact first.filter _
  · have gone : accepted = conn.ws.upgradeRequest ++ framesOnWire conn.ws.tx.queued := by
      have front : conn.front = [] := List.prefix_nil.mp (empty ▸ conn.front_prefix)
      rw [written, total, front, empty, List.take_nil]
    rw [gone, List.drop_left] at all
    rw [gone, List.drop_left, all rfl, ← said]
    rfl

/-! ## Mask keys -/

/-- The key of a client is drawn from the generator, and the keys of its frames are cut from what
the generator gives next: in order, four bytes a frame, and no more than a block ahead. -/
theorem mask_keys_in_order {sys : System} (reached : poolMachine.Reach Machine.always sys)
    {i : Nat} {conn : ConnectionState} (found : sys.pool.connAt i = some conn) :
    let tx := conn.ws.tx
    ∃ call, conn.ws.clientKey = encodeKey (tx.maskRng.given call 16) ∧
      ((∀ earlier < tx.maskRng.calls, (tx.maskRng.draws earlier).isSome = true) →
        (∀ n entry, tx.queued[n]? = some entry →
          entry.2.toBytes = ((tx.keyStream (call + 1)).drop (4 * n)).take 4) ∧
        4 * tx.queued.length ≤ (tx.keyStream (call + 1)).length ∧
        (tx.keyStream (call + 1)).length ≤ 4 * tx.queued.length + maskPoolBytes) := by
  have tended : Tended fun w w' : WsClient => w.HasKeys → w'.HasKeys :=
    { WsClient.hasKeys_respected with
      begins := WsClient.beginHandshake_hasKeys
      acks := fun w => w.ackTx_hasKeys _ }
  obtain ⟨draws, call, keyed⟩ := System.clients_hold WsClient.created_hasKeys tended
    (fun w code reason => (w.sendClose_drives code reason).hasKeys)
    (fun what w => (what.run_drives w).hasKeys) reached i conn found
  have source := keyed.keys.source
  intro tx
  refine ⟨call, ?_, fun successful => ?_⟩
  · rw [keyed.clientKey, ← source]
    rfl
  · have successful' : ∀ earlier < tx.maskRng.calls, (draws earlier).isSome = true := by
      rw [← source]
      exact successful
    exact ⟨fun n entry there => keyed.keys.key successful' there,
      keyed.keys.stream_length successful'⟩

end Messages

section Spoken

attribute [local instance] Sample.rustls Ws.Sample.digest

/-- Two messages behind the upgrade; the kernel accepts the request, a part of the first message,
and the rest. -/
def chatter : List PoolLabel :=
  Sample.upgrade ++ [.send Sample.handle (.text [0x68, 0x69]), .post ⟨1, 148, 0, []⟩, .drain,
    .dispatch .data, .submit 0, .enter, .send Sample.handle (.binary [0x2A]), .post ⟨1, 3, 0, []⟩,
    .drain, .dispatch .data, .submit 0, .enter, .post ⟨1, 12, 0, []⟩, .drain, .dispatch .data]

/-- The pool behind these steps. -/
def chattered : System := (poolMachine.run (Sample.start 256 fun _ => none) chatter).1

theorem peer_reads_what_was_said_chatter : ∃ conn, chattered.pool.connAt 0 = some conn ∧
    (peerReads (((Sample.start 256 fun _ => none).accepted Sample.handle.raw chatter).drop
      conn.ws.upgradeRequest.length)).filter OutFrame.spoken =
        [⟨true, .text, [0x68, 0x69]⟩, ⟨true, .binary, [0x2A]⟩] := by
  have seated : (chattered.pool.connAt 0).any (fun conn =>
      decide (conn.token = Sample.handle.raw) && conn.tls.isNone && conn.ws.handshakeStarted &&
        conn.waiting.isEmpty) = true := by
    decide +kernel
  obtain ⟨conn, found, known⟩ := (Option.any_eq_true _ _).mp seated
  simp only [Bool.and_eq_true, decide_eq_true_eq, Option.isNone_iff_eq_none,
    List.isEmpty_iff] at known
  obtain ⟨⟨⟨same, plain⟩, started⟩, empty⟩ := known
  have speaks : poolMachine.Admitted (System.Speaks Sample.handle.raw)
      (Sample.start 256 fun _ => none) chatter := by decide +kernel
  have said : (Sample.start 256 fun _ => none).said Sample.handle.raw chatter =
      [⟨true, .text, [0x68, 0x69]⟩, ⟨true, .binary, [0x2A]⟩] := by decide +kernel
  obtain ⟨-, -, all⟩ := peer_reads_what_was_said (Sample.start_initial _ (by decide)) speaks 0 conn
    found same plain started
  exact ⟨conn, found, (all empty).trans said⟩

theorem mask_keys_in_order_chatter : ∃ conn call, chattered.pool.connAt 0 = some conn ∧
    conn.ws.clientKey = encodeKey (conn.ws.tx.maskRng.given call 16) ∧
    conn.ws.tx.queued.map (fun entry => entry.2.toBytes) =
      [[0x74, 0x68, 0x65, 0x20], [0x73, 0x61, 0x6D, 0x70]] ∧
    ∀ n entry, conn.ws.tx.queued[n]? = some entry →
      entry.2.toBytes = ((conn.ws.tx.keyStream (call + 1)).drop (4 * n)).take 4 := by
  have reached : poolMachine.Reach Machine.always chattered :=
    (Machine.Reach.start (Sample.start_initial _ (by decide))).run_always chatter
  have seated : (chattered.pool.connAt 0).any (fun conn =>
      decide (conn.ws.tx.queued.map (fun entry => entry.2.toBytes) =
        [[0x74, 0x68, 0x65, 0x20], [0x73, 0x61, 0x6D, 0x70]]) &&
      (List.range conn.ws.tx.maskRng.calls).all fun call =>
        (conn.ws.tx.maskRng.draws call).isSome) = true := by
    decide +kernel
  obtain ⟨conn, found, known⟩ := (Option.any_eq_true _ _).mp seated
  simp only [Bool.and_eq_true, decide_eq_true_eq, List.all_eq_true, List.mem_range] at known
  obtain ⟨call, key, given⟩ := mask_keys_in_order reached found
  exact ⟨conn, call, found, key, known.1, (given known.2).1⟩

end Spoken

end Talaris
