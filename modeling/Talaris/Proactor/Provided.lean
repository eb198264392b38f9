import Talaris.Basis.Circle
import Talaris.Connection.Recv

/-!
# The kernel's side of a buffer ring

The kernel takes the entries of a provided buffer ring in order from its head, fills their
buffers with received bytes and posts a completion that names the first buffer only.  Head and
tail are `u16` counters that wrap.  As long as every buffer is given back once and in the order
in which the kernel took it, the entry in slot `s` is the one for buffer `s`, and the buffers
that follow the first can be worked out.
-/

namespace Talaris

open Talaris.Basis
open Talaris.Ws

/-- A completion in the queue.  `bids` is not in the source: it records the buffers that the
kernel took for it. -/
structure Posted where
  completion : Completion
  bids : List Nat
  deriving DecidableEq, Repr

/-- What the kernel keeps for a ring: its head, the memory of the buffers by id, and the
completions not yet handled.  `taken` is not in the source: it records the buffers of all
entries taken. -/
structure KernelRing where
  head : Nat
  storage : Nat → Bytes
  posted : List Posted
  taken : List Nat

/-- Bytes written to the front of a buffer. -/
def overwrite (buffer bytes : Bytes) : Bytes := bytes ++ buffer.drop bytes.length

namespace BufferRing

/-- Entries published and not yet taken, as the kernel counts them. -/
def available (ring : BufferRing) (head : Nat) : Nat := (ring.localTail + 2 ^ 16 - head) % 2 ^ 16

/-- The entries that a receive of `n` bytes takes. -/
def entriesFor (ring : BufferRing) (mode : RecvMode) (n : Nat) : Nat :=
  match mode with
  | .multishot => 1
  | .multishotBundle => divCeil n ring.bufSize

/-- A single buffer holds all bytes of a classic receive. -/
def holds (ring : BufferRing) (mode : RecvMode) (n : Nat) : Prop :=
  mode = .multishot → n ≤ ring.bufSize

instance (ring : BufferRing) (mode : RecvMode) (n : Nat) : Decidable (ring.holds mode n) := by
  unfold holds
  infer_instance

end BufferRing

namespace KernelRing

/-- The next entries are taken and their buffers filled. -/
def fill (ring : BufferRing) : Nat → Bytes → KernelRing → KernelRing
  | 0, _, kernel => kernel
  | count + 1, bytes, kernel =>
      let bid := ring.slots.getD (kernel.head &&& (ring.entries - 1)) 0
      fill ring count (bytes.drop ring.bufSize)
        { kernel with
          head := (kernel.head + 1) % 2 ^ 16
          storage := Function.update kernel.storage bid
            (overwrite (kernel.storage bid) (bytes.take ring.bufSize))
          taken := kernel.taken ++ [bid] }

/-- The flags of a completion that names a buffer; `others` are the remaining flags. -/
def bufferFlags (bid others : Nat) : Nat := bid * 2 ^ 16 + others % 2 ^ 15 * 2 + 1

/-- Bytes arrive.  Without enough entries the kernel takes none. -/
def receive (ring : BufferRing) (mode : RecvMode) (userData : UserData) (bytes : Bytes)
    (others : Nat) (kernel : KernelRing) : KernelRing :=
  let count := ring.entriesFor mode bytes.length
  if bytes = [] ∨ ¬ ring.holds mode bytes.length ∨ ring.available kernel.head < count then kernel
  else
    let filled := kernel.fill ring count bytes
    let bids := filled.taken.drop kernel.taken.length
    { filled with
      posted := kernel.posted ++
        [⟨⟨userData, bytes.length, bufferFlags (bids.headD 0) others, bytes⟩, bids⟩] }

/-- A completion without a buffer, such as an end of file or `ENOBUFS`. -/
def notify (userData : UserData) (result : Int) (others : Nat) (kernel : KernelRing) :
    KernelRing :=
  { kernel with posted := kernel.posted ++ [⟨⟨userData, result, others * 2, []⟩, []⟩] }

/-- The bytes that stand at the front of a buffer. -/
def look (kernel : KernelRing) (bid len : Nat) : Bytes := (kernel.storage bid).take len

end KernelRing

/-! ## Rings in order -/

/-- A ring that got back the buffers of its first positions, in order. -/
structure BufferRing.InOrder (ring : BufferRing) : Prop where
  power : ∃ k ≤ 15, ring.entries = 2 ^ k
  size : 0 < ring.bufSize
  slots : ring.slots = List.range ring.entries
  tail : ring.localTail = (ring.entries + ring.recycled.length) % 2 ^ 16
  given : ring.recycled = span ring.entries 0 ring.recycled.length

namespace BufferRing

@[simp] theorem recycle_entries (ring : BufferRing) (bid : Nat) :
    (ring.recycle bid).entries = ring.entries := by
  unfold recycle
  split <;> rfl

@[simp] theorem recycle_bufSize (ring : BufferRing) (bid : Nat) :
    (ring.recycle bid).bufSize = ring.bufSize := by
  unfold recycle
  split <;> rfl

@[simp] theorem recycleAll_entries (ring : BufferRing) (bids : List Nat) :
    (ring.recycleAll bids).entries = ring.entries := by
  unfold recycleAll
  induction bids generalizing ring with
  | nil => rfl
  | cons bid bids ih => rw [List.foldl_cons, ih, recycle_entries]

@[simp] theorem recycleAll_bufSize (ring : BufferRing) (bids : List Nat) :
    (ring.recycleAll bids).bufSize = ring.bufSize := by
  unfold recycleAll
  induction bids generalizing ring with
  | nil => rfl
  | cons bid bids ih => rw [List.foldl_cons, ih, recycle_bufSize]

namespace InOrder

variable {ring : BufferRing}

theorem positive (inOrder : ring.InOrder) : 0 < ring.entries := by
  obtain ⟨k, -, power⟩ := inOrder.power
  rw [power]
  exact Nat.two_pow_pos k

theorem narrow (inOrder : ring.InOrder) : ring.entries ≤ 2 ^ 15 := by
  obtain ⟨k, few, power⟩ := inOrder.power
  rw [power]
  exact Nat.pow_le_pow_right (by decide) few

/-- A wrapped counter finds the slot of its position. -/
theorem masked (inOrder : ring.InOrder) (position : Nat) :
    position % 2 ^ 16 &&& (ring.entries - 1) = position % ring.entries := by
  obtain ⟨k, few, power⟩ := inOrder.power
  rw [power]
  exact wrapped_and_mask (Nat.le_succ_of_le few) position

/-- The entry of a position is the one for the buffer of the same number. -/
theorem entry (inOrder : ring.InOrder) (position : Nat) :
    ring.slots.getD (position % 2 ^ 16 &&& (ring.entries - 1)) 0 = position % ring.entries := by
  have inside : position % ring.entries < ring.entries := Nat.mod_lt _ inOrder.positive
  rw [inOrder.masked, inOrder.slots, List.getD_eq_getElem?_getD, List.getElem?_range inside]
  rfl

/-- The next buffer in turn comes back to the slot that it left. -/
theorem recycle (inOrder : ring.InOrder) {bid : Nat}
    (next : bid = ring.recycled.length % ring.entries) :
    (ring.recycle bid).InOrder ∧ (ring.recycle bid).recycled = ring.recycled ++ [bid] := by
  have inside : bid < ring.entries := next ▸ Nat.mod_lt _ inOrder.positive
  have slot : ring.localTail &&& (ring.entries - 1) = bid := by
    rw [inOrder.tail, inOrder.masked, Nat.add_mod_left, next]
  have same : ring.slots.set bid bid = ring.slots := by
    rw [inOrder.slots]
    apply List.ext_getElem?
    intro i
    rw [List.getElem?_set]
    split
    next here =>
      rw [← here, List.length_range, if_pos inside, List.getElem?_range inside]
    next => rfl
  unfold BufferRing.recycle
  rw [if_pos inside]
  refine ⟨⟨inOrder.power, inOrder.size, ?_, ?_, ?_⟩, rfl⟩
  · show ring.slots.set (ring.localTail &&& (ring.entries - 1)) bid = List.range ring.entries
    rw [slot, same, inOrder.slots]
  · show (ring.localTail + 1) % 2 ^ 16 =
      (ring.entries + (ring.recycled ++ [bid]).length) % 2 ^ 16
    rw [inOrder.tail, Nat.mod_add_mod, List.length_append, List.length_singleton, Nat.add_assoc]
  · show ring.recycled ++ [bid] = span ring.entries 0 (ring.recycled ++ [bid]).length
    rw [List.length_append, List.length_singleton, ← span_append, ← inOrder.given, next,
      Nat.zero_add]
    rfl

/-- Buffers that come back in turn leave the ring in order. -/
theorem recycleAll (inOrder : ring.InOrder) {bids : List Nat}
    (turn : bids = span ring.entries ring.recycled.length bids.length) :
    (ring.recycleAll bids).InOrder ∧ (ring.recycleAll bids).recycled = ring.recycled ++ bids := by
  induction bids generalizing ring with
  | nil => exact ⟨inOrder, (List.append_nil _).symm⟩
  | cons bid bids ih =>
      rw [List.length_cons, span_succ, List.cons.injEq] at turn
      obtain ⟨next, later⟩ := turn
      obtain ⟨inOrder₁, recycled₁⟩ := inOrder.recycle next
      have turn₁ : bids = span (ring.recycle bid).entries (ring.recycle bid).recycled.length
          bids.length := by
        rw [recycle_entries, recycled₁, List.length_append, List.length_singleton]
        exact later
      obtain ⟨inOrder₂, recycled₂⟩ := ih inOrder₁ turn₁
      refine ⟨inOrder₂, ?_⟩
      show ((ring.recycle bid).recycleAll bids).recycled = ring.recycled ++ bid :: bids
      rw [recycled₂, recycled₁, List.append_assoc]
      rfl

/-- What the kernel may take, counted without wrapping. -/
theorem available (inOrder : ring.InOrder) {taken : Nat} (least : ring.recycled.length ≤ taken)
    (most : taken ≤ ring.entries + ring.recycled.length) :
    ring.available (taken % 2 ^ 16) = ring.entries + ring.recycled.length - taken := by
  have narrow := inOrder.narrow
  rw [BufferRing.available, inOrder.tail]
  omega

end InOrder

end BufferRing

/-! ## Filling buffers -/

/-- What the kernel makes of its side when it fills the entries from a position on. -/
structure KernelRing.Fills (ring : BufferRing) (position count : Nat) (bytes : Bytes)
    (kernel kernel' : KernelRing) : Prop where
  head : kernel'.head = (position + count) % 2 ^ 16
  posted : kernel'.posted = kernel.posted
  taken : kernel'.taken = kernel.taken ++ span ring.entries position count
  sized : (∀ bid, (kernel.storage bid).length = ring.bufSize) →
    ∀ bid, (kernel'.storage bid).length = ring.bufSize
  kept : ∀ bid ∉ span ring.entries position count, kernel'.storage bid = kernel.storage bid
  written : ∀ entry ∈ (span ring.entries position count).zip (chunks ring.bufSize count bytes),
    kernel'.look entry.1 entry.2.length = entry.2

theorem KernelRing.fill_fills {ring : BufferRing} (inOrder : ring.InOrder) {position : Nat}
    (count : Nat) (bytes : Bytes) (kernel : KernelRing)
    (head : kernel.head = position % 2 ^ 16) (fits : count ≤ ring.entries) :
    kernel.Fills ring position count bytes (kernel.fill ring count bytes) := by
  induction count generalizing kernel position bytes with
  | zero =>
      exact ⟨head, rfl, by simp [fill], fun sized => sized, fun _ _ => rfl, by simp⟩
  | succ count ih =>
      have bid : ring.slots.getD (kernel.head &&& (ring.entries - 1)) 0 =
          position % ring.entries := by
        rw [head, inOrder.entry]
      simp only [fill, bid]
      generalize chosen : position % ring.entries = slot
      generalize next : { kernel with
        head := (kernel.head + 1) % 2 ^ 16
        storage := Function.update kernel.storage slot
          (overwrite (kernel.storage slot) (bytes.take ring.bufSize))
        taken := kernel.taken ++ [slot] } = kernel₁
      have head₁ : kernel₁.head = (position + 1) % 2 ^ 16 := by
        rw [← next, head, Nat.mod_add_mod]
      have storage₁ : kernel₁.storage = Function.update kernel.storage slot
          (overwrite (kernel.storage slot) (bytes.take ring.bufSize)) := by
        rw [← next]
      have rest := ih (bytes.drop ring.bufSize) kernel₁ head₁ (Nat.le_of_succ_le fits)
      have first : slot ∈ span ring.entries position 1 := by simp [span_succ, chosen]
      have apart : slot ∉ span ring.entries (position + 1) count :=
        span_disjoint (by omega) first
      constructor
      case head => rw [rest.head, Nat.add_assoc, Nat.add_comm 1 count]
      case posted => rw [rest.posted, ← next]
      case taken =>
        rw [rest.taken, ← next, span_succ, chosen, List.append_assoc, List.singleton_append]
      case sized =>
        intro sized
        apply rest.sized
        intro other
        rw [storage₁]
        by_cases same : other = slot
        · rw [same, Function.update_self, overwrite, List.length_append, List.length_drop, sized]
          have short := List.length_take_le ring.bufSize bytes
          omega
        · rw [Function.update_of_ne same, sized]
      case kept =>
        intro other outside
        rw [span_succ, chosen, List.mem_cons, not_or] at outside
        rw [rest.kept other outside.2, storage₁, Function.update_of_ne outside.1]
      case written =>
        intro entry member
        rw [span_succ, chunks_succ, chosen, List.zip_cons_cons, List.mem_cons] at member
        rcases member with rfl | later
        · -- the entries after the first leave its buffer alone
          rw [look, rest.kept slot apart, storage₁, Function.update_self, overwrite]
          exact List.take_left
        · exact rest.written entry later

/-! ## Completions -/

/-- What the kernel wrote to the buffers of a completion, buffer by buffer. -/
def Posted.loans (ring : BufferRing) (posted : Posted) : List (Nat × Bytes) :=
  posted.bids.zip (chunks ring.bufSize posted.bids.length posted.completion.payload)

/-- A completion as the kernel posts it: a notice without a buffer, or bytes in consecutive
buffers of which the first is named. -/
inductive Posted.Fits (ring : BufferRing) (mode : RecvMode) : Posted → Prop where
  | notice {c : Completion} : c.bufferId = none → c.payload = [] → Posted.Fits ring mode ⟨c, []⟩
  | data {c : Completion} (first : Nat) :
      c.payload ≠ [] → c.result = c.payload.length → ring.holds mode c.payload.length →
      ring.entriesFor mode c.payload.length ≤ ring.entries →
      c.bufferId = some (first % ring.entries) →
      Posted.Fits ring mode
        ⟨c, span ring.entries first (ring.entriesFor mode c.payload.length)⟩

namespace Posted

variable {ring : BufferRing}

theorem loans_fst (posted : Posted) : (posted.loans ring).map Prod.fst = posted.bids :=
  List.map_fst_zip (by rw [chunks_length])

theorem loans_snd (posted : Posted) :
    (posted.loans ring).map Prod.snd =
      chunks ring.bufSize posted.bids.length posted.completion.payload :=
  List.map_snd_zip (by rw [chunks_length])

/-- Only the size of the buffers matters. -/
theorem loans_congr {ring' : BufferRing} (same : ring'.bufSize = ring.bufSize)
    (posted : Posted) : posted.loans ring' = posted.loans ring := by
  rw [loans, loans, same]

theorem Fits.congr {ring' : BufferRing} {mode : RecvMode} {posted : Posted}
    (fits : posted.Fits ring mode) (count : ring'.entries = ring.entries)
    (size : ring'.bufSize = ring.bufSize) : posted.Fits ring' mode := by
  have uses (n : Nat) : ring'.entriesFor mode n = ring.entriesFor mode n := by
    cases mode with
    | multishot => rfl
    | multishotBundle => rw [BufferRing.entriesFor, BufferRing.entriesFor, size]
  cases fits with
  | notice unnamed silent => exact .notice unnamed silent
  | data first some_bytes result held few named =>
      rw [← uses, ← count] at few ⊢
      rw [← count] at named
      refine .data first some_bytes result (fun classic => ?_) few named
      rw [size]
      exact held classic

/-- The buffers of a completion hold all of its bytes. -/
theorem Fits.whole {mode : RecvMode} {posted : Posted} (size : 0 < ring.bufSize)
    (fits : posted.Fits ring mode) :
    ((posted.loans ring).map Prod.snd).flatten = posted.completion.payload := by
  rw [loans_snd]
  apply chunks_flatten
  cases fits with
  | notice unnamed silent => simp [silent]
  | @data c first some_bytes result held few named =>
      show c.payload.length ≤
        (span ring.entries first (ring.entriesFor mode c.payload.length)).length * ring.bufSize
      rw [span_length]
      cases mode with
      | multishot =>
          rw [BufferRing.entriesFor, Nat.one_mul]
          exact held rfl
      | multishotBundle =>
          have below := Nat.lt_mul_div_succ (c.payload.length + ring.bufSize - 1) size
          rw [BufferRing.entriesFor, BufferRing.divCeil, Nat.mul_comm]
          rw [Nat.mul_succ] at below
          omega

end Posted

namespace KernelRing

@[simp] theorem bufferId_bufferFlags (userData : UserData) (result : Int) (payload : Bytes)
    {bid : Nat} (narrow : bid < 2 ^ 16) (others : Nat) :
    (⟨userData, result, bufferFlags bid others, payload⟩ : Completion).bufferId = some bid := by
  have odd : bufferFlags bid others &&& 1 ≠ 0 := by
    rw [bufferFlags, Nat.and_one_is_mod]
    omega
  have upper : bufferFlags bid others >>> 16 % 2 ^ 16 = bid := by
    rw [bufferFlags, Nat.shiftRight_eq_div_pow]
    omega
  rw [Completion.bufferId, if_pos odd, upper]

theorem bufferId_notify (userData : UserData) (result : Int) (others : Nat) (payload : Bytes) :
    (⟨userData, result, others * 2, payload⟩ : Completion).bufferId = none := by
  have even : ¬ others * 2 &&& 1 ≠ 0 := by
    rw [Nat.and_one_is_mod]
    omega
  rw [Completion.bufferId, if_neg even]

/-- The kernel takes nothing, or posts what it wrote to the next buffers. -/
theorem receive_cases {ring : BufferRing} (inOrder : ring.InOrder) (mode : RecvMode)
    (userData : UserData) (bytes : Bytes) (others : Nat) (kernel : KernelRing) {position : Nat}
    (head : kernel.head = position % 2 ^ 16)
    (room : ring.available kernel.head ≤ ring.entries) :
    kernel.receive ring mode userData bytes others = kernel ∨
      ∃ filled posted,
        kernel.Fills ring position (ring.entriesFor mode bytes.length) bytes filled ∧
        ring.entriesFor mode bytes.length ≤ ring.available kernel.head ∧
        posted.completion.userData = userData ∧ posted.completion.payload = bytes ∧
        posted.bids = span ring.entries position (ring.entriesFor mode bytes.length) ∧
        posted.Fits ring mode ∧
        kernel.receive ring mode userData bytes others =
          { filled with posted := kernel.posted ++ [posted] } := by
  unfold receive
  dsimp only
  split
  next => exact .inl rfl
  next able =>
    simp only [not_or, Decidable.not_not, Nat.not_lt] at able
    obtain ⟨some_bytes, held, enough⟩ := able
    have fits := Nat.le_trans enough room
    have fills := fill_fills inOrder _ bytes kernel head fits
    generalize kernel.fill ring (ring.entriesFor mode bytes.length) bytes = filled at fills ⊢
    have bids : filled.taken.drop kernel.taken.length =
        span ring.entries position (ring.entriesFor mode bytes.length) := by
      rw [fills.taken, List.drop_left]
    have first : (span ring.entries position (ring.entriesFor mode bytes.length)).headD 0 =
        position % ring.entries := by
      have one : 0 < ring.entriesFor mode bytes.length := by
        cases mode with
        | multishot => exact Nat.one_pos
        | multishotBundle =>
            have filledSome := List.length_pos_of_ne_nil some_bytes
            exact Nat.div_pos (by have size := inOrder.size; omega) inOrder.size
      obtain ⟨count, counted⟩ := Nat.exists_eq_succ_of_ne_zero (Nat.ne_of_gt one)
      rw [counted, span_succ]
      rfl
    have narrow : position % ring.entries < 2 ^ 16 :=
      Nat.lt_of_lt_of_le (Nat.mod_lt _ inOrder.positive)
        (Nat.le_trans inOrder.narrow (by decide))
    rw [bids, first]
    exact .inr ⟨filled, _, fills, enough, rfl, rfl, rfl,
      .data position some_bytes rfl held fits (bufferId_bufferFlags _ _ _ narrow others), rfl⟩

end KernelRing

/-! ## Reading a completion -/

/-- The buffers that `recycleRecvBuffers` gives back. -/
def BufferRing.recycledBids (ring : BufferRing) (mode : RecvMode) (startBid totalLen : Nat) :
    List Nat :=
  let count := match mode with
    | .multishot => 1
    | .multishotBundle => max (divCeil totalLen ring.bufSize) 1
  (List.range (min count ring.entries)).map (ring.sliceBid startBid)

theorem BufferRing.recycleRecvBuffers_eq (ring : BufferRing) (mode : RecvMode)
    (startBid totalLen : Nat) :
    ring.recycleRecvBuffers mode startBid totalLen =
      ring.recycleAll (ring.recycledBids mode startBid totalLen) := rfl

theorem Completion.bytes_eq (c : Completion) {start len : Nat}
    (inside : start + len ≤ c.payload.length) :
    c.bytes start len = (c.payload.drop start).take len := by
  apply List.ext_getElem
  · simp [Completion.bytes]
    omega
  · intro i before _
    simp only [Completion.bytes, List.length_map, List.length_range] at before
    have within : start + i < c.payload.length := by omega
    simp [Completion.bytes, List.getElem?_eq_getElem within]

namespace BufferRing.InOrder

variable {ring : BufferRing}

/-- The buffers after the first are the ones that the kernel took. -/
theorem sliceBid (inOrder : ring.InOrder) (first : Nat) {index : Nat}
    (inside : index < ring.entries) :
    ring.sliceBid (first % ring.entries) index = (first + index) % ring.entries := by
  have few : index ≤ u16Max := by
    have narrow := inOrder.narrow
    unfold u16Max
    omega
  rw [BufferRing.sliceBid, Nat.min_eq_left few, inOrder.masked, Nat.mod_add_mod]

theorem map_sliceBid (inOrder : ring.InOrder) (first : Nat) {count : Nat}
    (fits : count ≤ ring.entries) :
    (List.range count).map (ring.sliceBid (first % ring.entries)) =
      span ring.entries first count := by
  rw [span_eq_map]
  apply List.map_congr_left
  intro i member
  exact inOrder.sliceBid first (Nat.lt_of_lt_of_le (List.mem_range.mp member) fits)

/-- The slices are what the kernel wrote to the buffers it took. -/
theorem recvSlices (inOrder : ring.InOrder) {mode : RecvMode} {c : Completion} {first : Nat}
    (held : ring.holds mode c.payload.length)
    (fits : ring.entriesFor mode c.payload.length ≤ ring.entries) :
    ring.recvSlices mode c (first % ring.entries) c.payload.length =
      .ok (Posted.loans ring
        ⟨c, span ring.entries first (ring.entriesFor mode c.payload.length)⟩) := by
  have cut (count : Nat) (few : count ≤ ring.entries)
      (used : ∀ i < count, i * ring.bufSize ≤ c.payload.length) :
      (List.range count).map (fun index =>
        (ring.sliceBid (first % ring.entries) index,
          c.bytes (index * ring.bufSize)
            (min (c.payload.length - index * ring.bufSize) ring.bufSize))) =
        (span ring.entries first count).zip (chunks ring.bufSize count c.payload) := by
    rw [← inOrder.map_sliceBid first few, chunks, List.zip_map']
    apply List.map_congr_left
    intro i member
    have reached := used i (List.mem_range.mp member)
    have piece : c.bytes (i * ring.bufSize)
        (min (c.payload.length - i * ring.bufSize) ring.bufSize) =
          (c.payload.drop (i * ring.bufSize)).take ring.bufSize := by
      rw [c.bytes_eq (by omega), Nat.min_comm, ← List.length_drop, ← List.take_eq_take_min]
    rw [piece]
  unfold Posted.loans
  rw [span_length]
  cases mode with
  | multishot =>
      have single : c.payload.length ≤ ring.bufSize := held rfl
      have exact_one := cut 1 (by exact fits) (by
        intro i below
        have zero : i = 0 := by omega
        simp [zero])
      rw [BufferRing.recvSlices]
      simp only [if_neg (Nat.not_lt.mpr single), if_neg (Nat.not_lt.mpr inOrder.positive)]
      rw [exact_one]
      rfl
  | multishotBundle =>
      have few : divCeil c.payload.length ring.bufSize ≤ ring.entries := fits
      have exact_all := cut (divCeil c.payload.length ring.bufSize) few (by
        intro i below
        have size := inOrder.size
        have bound := (Nat.lt_div_iff_mul_lt size).mp below
        omega)
      rw [BufferRing.recvSlices]
      simp only [if_neg (Nat.not_lt.mpr few)]
      rw [exact_all]
      rfl

/-- A discarded completion gives back what the kernel took. -/
theorem recycledBids (inOrder : ring.InOrder) {mode : RecvMode} {n : Nat} (first : Nat)
    (some_bytes : 0 < n) (fits : ring.entriesFor mode n ≤ ring.entries) :
    ring.recycledBids mode (first % ring.entries) n =
      span ring.entries first (ring.entriesFor mode n) := by
  cases mode with
  | multishot =>
      have few : 1 ≤ ring.entries := fits
      rw [BufferRing.recycledBids, ← inOrder.map_sliceBid first fits]
      show List.map _ (List.range (min 1 ring.entries)) = List.map _ (List.range 1)
      rw [Nat.min_eq_left few]
  | multishotBundle =>
      have few : divCeil n ring.bufSize ≤ ring.entries := fits
      have one : 1 ≤ divCeil n ring.bufSize :=
        Nat.div_pos (by have size := inOrder.size; omega) inOrder.size
      rw [BufferRing.recycledBids, ← inOrder.map_sliceBid first fits]
      show List.map _ (List.range (min (max (divCeil n ring.bufSize) 1) ring.entries)) =
        List.map _ (List.range (divCeil n ring.bufSize))
      rw [Nat.max_eq_left one, Nat.min_eq_left few]

end BufferRing.InOrder

end Talaris
