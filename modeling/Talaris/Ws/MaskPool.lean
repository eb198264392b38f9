import Talaris.Ws.Uses

/-!
# Where mask keys come from

A client draws its random bytes in blocks and cuts the keys of its frames out of them.  The blocks
are used up from front to end, whatever the calls, so no byte of the generator is in two keys and
none is left out (`Keyed`).
-/

namespace Talaris.Ws

/-- The bytes that one call of the generator gives. -/
def SystemRandom.given (rng : SystemRandom) (call len : Nat) : Bytes :=
  ((rng.draws call).map fun draw => (List.range len).map draw).getD []

namespace TxQueue

/-- The bytes of all keys so far. -/
def keyBytes (tx : TxQueue) : Bytes := tx.queued.flatMap fun entry => entry.2.toBytes

/-- Mask key bytes drawn since the call `first`. -/
def keyStream (tx : TxQueue) (first : Nat) : Bytes :=
  (List.range' first (tx.maskRng.calls - first)).flatMap fun call =>
    tx.maskRng.given call maskPoolBytes

/-- The keys are cut from the blocks drawn since the call `first`, in order and without gaps. -/
structure Keyed (draws : Nat → Option (Nat → UInt8)) (first : Nat) (tx : TxQueue) : Prop where
  source : tx.maskRng.draws = draws
  aligned : 4 ∣ tx.maskPoolCursor
  within : tx.maskPoolCursor ≤ maskPoolBytes
  drawn : first ≤ tx.maskRng.calls
  size : tx.maskPool.length = maskPoolBytes
  stream : (∀ call < tx.maskRng.calls, (draws call).isSome = true) →
    tx.keyBytes ++ tx.maskPool.drop tx.maskPoolCursor = tx.keyStream first

theorem toBytes_ofBytes {bytes : Bytes} (enough : 4 ≤ bytes.length) :
    (MaskKey.ofBytes bytes).toBytes = bytes.take 4 :=
  maskField_ofBytes true enough

theorem keys_length (frames : List (OutFrame × MaskKey)) :
    (frames.flatMap fun entry => entry.2.toBytes).length = 4 * frames.length := by
  induction frames with
  | nil => rfl
  | cons entry frames ih =>
      rw [List.flatMap_cons, List.length_append, ih, List.length_cons]
      simp only [MaskKey.toBytes, List.length_cons, List.length_nil]
      omega

namespace Keyed

variable {draws : Nat → Option (Nat → UInt8)} {first : Nat} {tx tx' : TxQueue}

/-- The key fields alone decide. -/
theorem of_same (keyed : Keyed draws first tx) (queued : tx'.queued = tx.queued)
    (maskPool : tx'.maskPool = tx.maskPool) (cursor : tx'.maskPoolCursor = tx.maskPoolCursor)
    (maskRng : tx'.maskRng = tx.maskRng) : Keyed draws first tx' := by
  constructor
  case source => rw [maskRng]; exact keyed.source
  case aligned => rw [cursor]; exact keyed.aligned
  case within => rw [cursor]; exact keyed.within
  case drawn => rw [maskRng]; exact keyed.drawn
  case size => rw [maskPool]; exact keyed.size
  case stream =>
    rw [maskPool, cursor, keyStream, maskRng, keyBytes, queued]
    exact keyed.stream

/-- The refill of a pool that is used up. -/
theorem refill (keyed : Keyed draws first tx) (empty : maskPoolBytes < tx.maskPoolCursor + 4) :
    Keyed draws first
      { tx with
        maskPool := (tx.maskRng.fill maskPoolBytes).1.getD tx.maskPool, maskPoolCursor := 0,
        maskRng := (tx.maskRng.fill maskPoolBytes).2 } := by
  have used : tx.maskPoolCursor = maskPoolBytes := by
    obtain ⟨turns, multiple⟩ := keyed.aligned
    have within := keyed.within
    rw [maskPoolBytes] at *
    omega
  have drawn := keyed.drawn
  constructor
  case source => exact keyed.source
  case aligned => exact ⟨0, rfl⟩
  case within => exact Nat.zero_le _
  case drawn => exact Nat.le_succ_of_le drawn
  case size =>
    dsimp only [SystemRandom.fill]
    cases tx.maskRng.draws tx.maskRng.calls with
    | none => exact keyed.size
    | some draw => simp
  case stream =>
    intro successful
    have before := keyed.stream fun call earlier => successful call (Nat.lt_succ_of_lt earlier)
    rw [used, List.drop_of_length_le (Nat.le_of_eq keyed.size), List.append_nil] at before
    have filled : (tx.maskRng.fill maskPoolBytes).1.getD tx.maskPool =
        tx.maskRng.given tx.maskRng.calls maskPoolBytes := by
      obtain ⟨draw, drew⟩ := Option.isSome_iff_exists.mp
        (successful tx.maskRng.calls (Nat.lt_succ_self _))
      have drew' : tx.maskRng.draws tx.maskRng.calls = some draw := by rw [keyed.source, drew]
      simp [SystemRandom.fill, SystemRandom.given, drew']
    have more : tx.maskRng.calls + 1 - first = (tx.maskRng.calls - first) + 1 := by omega
    have last : first + (tx.maskRng.calls - first) = tx.maskRng.calls := by omega
    show tx.keyBytes ++ List.drop 0 _ = (List.range' first (tx.maskRng.calls + 1 - first)).flatMap _
    rw [filled, List.drop_zero, more, List.range'_1_concat, List.flatMap_append, last, before]
    simp [keyStream, SystemRandom.given, SystemRandom.fill]

/-- Before a key is cut the pool holds one. -/
theorem before_key (keyed : Keyed draws first tx) : ∃ tx₁ : TxQueue, Keyed draws first tx₁ ∧
    tx₁.maskPoolCursor + 4 ≤ maskPoolBytes ∧
    tx.nextMask = (MaskKey.ofBytes (tx₁.maskPool.drop tx₁.maskPoolCursor),
      { tx₁ with maskPoolCursor := tx₁.maskPoolCursor + 4 }) := by
  unfold nextMask
  dsimp only
  split
  next empty =>
    have room : 0 + 4 ≤ maskPoolBytes := by decide
    exact ⟨_, keyed.refill empty, room, rfl⟩
  next enough => exact ⟨tx, keyed, Nat.le_of_not_lt enough, rfl⟩

/-- A frame takes the next four bytes. -/
theorem writeFrame (keyed : Keyed draws first tx) (fin : Bool) (opcode : OpCode) (payload : Bytes) :
    Keyed draws first (tx.writeFrame fin opcode payload) := by
  obtain ⟨tx₁, keyed₁, enough, drew⟩ := keyed.before_key
  have queued : (tx.writeFrame fin opcode payload).queued =
      tx₁.queued ++ [(⟨fin, opcode, payload⟩,
        MaskKey.ofBytes (tx₁.maskPool.drop tx₁.maskPoolCursor))] := by
    simp [TxQueue.writeFrame, drew, extend, compactTxIfNeeded_queued]
  have fields : (tx.writeFrame fin opcode payload).maskPool = tx₁.maskPool ∧
      (tx.writeFrame fin opcode payload).maskPoolCursor = tx₁.maskPoolCursor + 4 ∧
      (tx.writeFrame fin opcode payload).maskRng = tx₁.maskRng := by
    simp only [TxQueue.writeFrame, drew, extend, compactTxIfNeeded]
    repeat' split
    all_goals exact ⟨rfl, rfl, rfl⟩
  obtain ⟨maskPool, cursor, maskRng⟩ := fields
  constructor
  case source => rw [maskRng]; exact keyed₁.source
  case aligned =>
    rw [cursor]
    exact Nat.dvd_add keyed₁.aligned (Nat.dvd_refl 4)
  case within => rw [cursor]; exact enough
  case drawn => rw [maskRng]; exact keyed₁.drawn
  case size => rw [maskPool]; exact keyed₁.size
  case stream =>
    intro successful
    rw [maskRng] at successful
    have rest : 4 ≤ (tx₁.maskPool.drop tx₁.maskPoolCursor).length := by
      rw [List.length_drop, keyed₁.size]
      omega
    rw [keyBytes, queued, maskPool, cursor, keyStream, maskRng, List.flatMap_append,
      List.flatMap_singleton, toBytes_ofBytes rest, List.append_assoc, ← List.drop_drop,
      List.take_append_drop]
    exact keyed₁.stream successful

theorem ackTx (keyed : Keyed draws first tx) (n : Nat) : Keyed draws first (tx.ackTx n) := by
  unfold TxQueue.ackTx
  split
  next => exact keyed.of_same rfl rfl rfl rfl
  next => exact keyed.of_same rfl rfl rfl rfl

/-- The stream is as long as the keys, but for what is left of the last block. -/
theorem stream_length (keyed : Keyed draws first tx)
    (successful : ∀ call < tx.maskRng.calls, (draws call).isSome = true) :
    4 * tx.queued.length ≤ (tx.keyStream first).length ∧
      (tx.keyStream first).length ≤ 4 * tx.queued.length + maskPoolBytes := by
  have total := congrArg List.length (keyed.stream successful)
  rw [List.length_append, List.length_drop, keyed.size, keyBytes, keys_length] at total
  omega

/-- The keys of the frames are the first bytes of the stream, four a frame. -/
theorem key (keyed : Keyed draws first tx)
    (successful : ∀ call < tx.maskRng.calls, (draws call).isSome = true) {n : Nat}
    {entry : OutFrame × MaskKey} (there : tx.queued[n]? = some entry) :
    entry.2.toBytes = ((tx.keyStream first).drop (4 * n)).take 4 := by
  obtain ⟨within, same⟩ := List.getElem?_eq_some_iff.mp there
  have cut : tx.queued = tx.queued.take n ++ entry :: tx.queued.drop (n + 1) := by
    rw [← same, List.getElem_cons_drop, List.take_append_drop]
  have before := keys_length (tx.queued.take n)
  rw [List.length_take_of_le (Nat.le_of_lt within)] at before
  rw [← keyed.stream successful, keyBytes, cut, List.flatMap_append, List.append_assoc,
    List.drop_left' before, List.flatMap_cons, List.append_assoc]
  exact (List.take_left' rfl).symm

end Keyed

end TxQueue

theorem Wire.Move.keyed {draws : Nat → Option (Nat → UInt8)} {first : Nat} {wire wire' : Wire}
    (move : Wire.Move wire wire') (keyed : wire.tx.Keyed draws first) :
    wire'.tx.Keyed draws first := by
  cases move with
  | opened | ended => exact keyed
  | sent | ponged | closed => exact keyed.writeFrame ..

namespace WsClient

variable [AcceptDigest]

/-- The keys of the client come from one stream. -/
structure Keyed (w : WsClient) (draws : Nat → Option (Nat → UInt8)) (call : Nat) : Prop where
  framed : w.Framed
  clientKey : w.clientKey = encodeKey (SystemRandom.given ⟨draws, 0⟩ call 16)
  keys : w.tx.Keyed draws (call + 1)

/-- Whatever stream it is. -/
def HasKeys (w : WsClient) : Prop := ∃ draws call, w.Keyed draws call

variable {w w' : WsClient}

theorem Drives.hasKeys (drives : w.Drives w') : w.HasKeys → w'.HasKeys := by
  intro ⟨draws, call, keyed⟩
  obtain ⟨framed, moves⟩ := drives keyed.framed
  refine ⟨draws, call, framed, moves.clientKey.trans keyed.clientKey, ?_⟩
  have path := moves.path
  generalize finish : Wire.mk w'.state w'.tx = last at path
  have reached : last.tx.Keyed draws (call + 1) := by
    clear finish
    induction path with
    | refl => exact keyed.keys
    | tail _ move ih => exact move.keyed ih
  rw [← finish] at reached
  exact reached

theorem beginHandshake_hasKeys (w : WsClient) : w.HasKeys → w.beginHandshake.1.HasKeys := by
  intro ⟨draws, call, keyed⟩
  refine ⟨draws, call, ?_⟩
  unfold beginHandshake
  split
  next => exact keyed
  next =>
    split
    next => exact keyed
    next =>
      refine ⟨keyed.framed.of_same ⟨rfl, rfl, rfl⟩, keyed.clientKey, ?_⟩
      apply keyed.keys.of_same
      all_goals
        dsimp only [TxQueue.extend, TxQueue.compactTxIfNeeded]
        repeat' split
        all_goals rfl

theorem ackTx_hasKeys (w : WsClient) (n : Nat) : w.HasKeys → (w.ackTx n).HasKeys := by
  intro ⟨draws, call, keyed⟩
  exact ⟨draws, call, keyed.framed.of_same ⟨rfl, rfl, rfl⟩, keyed.clientKey, keyed.keys.ackTx n⟩

theorem created_hasKeys {config : WsConfig} {rng : SystemRandom}
    (made : WsClient.newClient config rng = .ok w) : w.HasKeys := by
  obtain ⟨framed, -, -, queued, -⟩ := newClient_fresh made
  unfold newClient at made
  split at made
  next => cases made
  next raw rng₁ first =>
    split at made
    next => cases made
    next =>
      dsimp only at made
      split at made
      next => cases made
      next maskPool rng₂ second =>
        simp only [SystemRandom.fill, Prod.mk.injEq, Option.map_eq_some_iff] at first second
        obtain ⟨⟨draw, drew, rfl⟩, rfl⟩ := first
        obtain ⟨⟨draw', drew', rfl⟩, rfl⟩ := second
        cases made
        have next : rng.draws (rng.calls + 1) = some draw' := drew'
        refine ⟨rng.draws, rng.calls, framed, ?_, rfl, ⟨0, rfl⟩, Nat.zero_le _, Nat.le_succ _, by simp, fun _ => ?_⟩
        · simp [SystemRandom.given, drew]
        · simp [TxQueue.keyBytes, TxQueue.keyStream, SystemRandom.given, next]

theorem hasKeys_respected : Respected fun w w' : WsClient => w.HasKeys → w'.HasKeys where
  refl _ := id
  trans first second keyed := second (first keyed)
  clear w := w.clearAfterEmit_drives.hasKeys
  feed w bytes := (w.feedRecv_drives bytes).hasKeys
  turn {w} _ := w.pollTurn_drives.hasKeys
  read rest cleared isOpen idle := (drives_respected.read rest cleared isOpen idle).hasKeys
  refuse e cleared isOpen idle := (drives_respected.refuse e cleared isOpen idle).hasKeys

end WsClient

end Talaris.Ws
