import Talaris.Basis.Transition
import Talaris.Connection.Loans

/-!
# A connection and the kernel around one ring

The kernel receives bytes into the next buffers of a connection's ring, and the handlers of the
connection work off the completions in the order in which they were posted.  Whatever the
handlers do with the bytes, the buffers go back in the order in which they were taken.  This is
what lets a handler work out all buffers of a completion from the first one.
-/

namespace Talaris

open Talaris.Basis
open Talaris.Ws

/-- A connection with a registered ring, and the kernel's side of that ring. -/
structure RingSystem [Rustls] where
  conn : ConnectionState
  kernel : KernelRing

/-- What may happen next.  `other` is everything that leaves the buffers alone: it may change
the connection in any way, but for its endpoint, and mark the ring as unregistered. -/
inductive RingLabel [Rustls] where
  | receive (bytes : Bytes) (others : Nat)
  | notify (result : Int) (others : Nat)
  | handle (proactor : Proactor) (pump : PumpKind)
  | handleRun (pump : PumpKind) (count : Nat)
  | other (change : ConnectionState → ConnectionState) (unregistered : Bool)

namespace RingSystem

section Steps

variable [Rustls]

/-- Bytes arrive at the armed receive. -/
def receive (system : RingSystem) (bytes : Bytes) (others : Nat) : RingSystem :=
  match system.conn.bufRing with
  | none => system
  | some ring =>
      { system with
        kernel := system.kernel.receive ring system.conn.cfg.recvMode
          (UserData.new .recv system.conn.token) bytes others }

/-- The receive ends, or fails, without a buffer. -/
def notify (system : RingSystem) (result : Int) (others : Nat) : RingSystem :=
  { system with
    kernel := system.kernel.notify (UserData.new .recv system.conn.token) result others }

def other (system : RingSystem) (change : ConnectionState → ConnectionState)
    (unregistered : Bool) : RingSystem :=
  { system with
    conn :=
      { change system.conn with
        toEndpoint := system.conn.toEndpoint
        bufRing := system.conn.bufRing.map fun ring => { ring with unregistered } } }

variable [AcceptDigest]

/-- The next completion goes to the handler of a pump. -/
def handle (system : RingSystem) (proactor : Proactor) (pump : PumpKind) : RingSystem :=
  match system.kernel.posted with
  | [] => system
  | posted :: rest =>
      ⟨(system.conn.completionHandler proactor pump posted.completion).2.conn,
        { system.kernel with posted := rest }⟩

/-- The next completions are handled together if they are all plain data. -/
def handleRun (system : RingSystem) (pump : PumpKind) (count : Nat) : RingSystem :=
  let completions := (system.kernel.posted.take count).map Posted.completion
  if completions.all system.conn.canHandlePlainRecvDataBatch then
    ⟨(system.conn.batchHandler pump completions).conn,
      { system.kernel with posted := system.kernel.posted.drop count }⟩
  else system

def step (system : RingSystem) : RingLabel → RingSystem
  | .receive bytes others => system.receive bytes others
  | .notify result others => system.notify result others
  | .handle proactor pump => system.handle proactor pump
  | .handleRun pump count => system.handleRun pump count
  | .other change unregistered => system.other change unregistered

/-- The ring has just been registered. -/
def Fresh (system : RingSystem) : Prop :=
  system.conn.cfg.bufRingEntries < 2 ^ 16 ∧
    (∃ proactor proactor' ring, system.conn.bufRing = some ring ∧
      BufferRing.new proactor system.conn.identity.bgid system.conn.cfg.bufRingEntries
        system.conn.cfg.bufRingSlotSize = (proactor', .ok ring)) ∧
    system.kernel.head = 0 ∧ system.kernel.posted = [] ∧ system.kernel.taken = [] ∧
    ∀ bid, (system.kernel.storage bid).length = system.conn.cfg.bufRingSlotSize

end Steps

end RingSystem

/-- A connection, from the registration of its ring on. -/
def ringMachine [Rustls] [AcceptDigest] : Machine RingSystem RingLabel Unit where
  initial := RingSystem.Fresh
  step system label := (system.step label, ())

/-- A completion of a classic receive has one buffer. -/
theorem Posted.Fits.lent {ring : BufferRing} {posted : Posted}
    (fits : posted.Fits ring .multishot) (carries : posted.completion.Carries) :
    posted.loans ring = [posted.completion.lent] := by
  cases fits with
  | notice unnamed silent =>
      have named := carries.2
      rw [unnamed] at named
      cases named
  | @data c first some_bytes result held few named =>
      have bytes : c.bytes 0 c.payload.length = c.payload := by
        rw [c.bytes_eq (by omega), List.drop_zero, List.take_length]
      rw [Completion.lent, named, result, Int.toNat_natCast, bytes]
      show (span ring.entries first 1).zip (chunks ring.bufSize (span _ _ 1).length c.payload) = _
      rw [span_length, chunks_one (held rfl), span_succ]
      rfl

/-! ## What a handler owes the ring -/

/-- Every entry is in the slot of its buffer.  Counted without wrapping, the kernel has taken
published entries only, and those left are no more than there are; the kernel finds as many. -/
structure BufferRing.Placed (ring : BufferRing) (kernel : KernelRing) : Prop where
  slots : ring.slots = List.range ring.entries
  published : kernel.taken.length ≤ ring.entries + ring.recycled.length
  left : ring.entries + ring.recycled.length - kernel.taken.length ≤ ring.entries
  found : ring.available kernel.head =
    ring.entries + ring.recycled.length - kernel.taken.length

/-- A handler has dealt with the completions of `run`: their buffers are back, once and in
order, and the ring was as it should be all the while.  The slices lent were still in memory
and are the bytes received; `loans` says what became of them. -/
structure RingSystem.Returns [Rustls] (system : RingSystem) (ring : BufferRing)
    (run : List Posted) (loans : List Loan) (active : Prop) (handled : Handled) : Prop where
  back : handled.conn.bufRing = some (ring.recycleAll (run.flatMap Posted.bids))
  once : (ring.recycleAll (run.flatMap Posted.bids)).recycled =
    ring.recycled ++ run.flatMap Posted.bids
  placed : ∀ k, (ring.recycleAll ((run.flatMap Posted.bids).take k)).Placed system.kernel
  memory : ∀ entry ∈ run.flatMap (Posted.loans ring),
    system.kernel.look entry.1 entry.2.length = entry.2
  whole : ((run.flatMap (Posted.loans ring)).map Prod.snd).flatten =
    run.flatMap fun posted => posted.completion.payload
  served : Loan.Serves (run.flatMap (Posted.loans ring)) loans active
    (∃ events, handled.result = .ok events)

/-! ## The invariant -/

namespace RingSystem

variable [Rustls]

/-- The kernel has taken the buffers around the ring; those of the completions that are not
handled yet are the last, and the others have come back in the same order. -/
structure InTurn (system : RingSystem) (ring : BufferRing) : Prop where
  present : system.conn.bufRing = some ring
  inOrder : ring.InOrder
  head : system.kernel.head = system.kernel.taken.length % 2 ^ 16
  around : system.kernel.taken = span ring.entries 0 system.kernel.taken.length
  lent : system.kernel.taken = ring.recycled ++ system.kernel.posted.flatMap Posted.bids
  most : system.kernel.taken.length ≤ ring.entries + ring.recycled.length
  fits : ∀ posted ∈ system.kernel.posted, posted.Fits ring system.conn.cfg.recvMode
  recv : ∀ posted ∈ system.kernel.posted, posted.completion.userData.kind = some .recv
  sized : ∀ bid, (system.kernel.storage bid).length = ring.bufSize
  written : ∀ posted ∈ system.kernel.posted, ∀ entry ∈ posted.loans ring,
    system.kernel.look entry.1 entry.2.length = entry.2

namespace InTurn

variable {system : RingSystem} {ring : BufferRing}

theorem least (inTurn : system.InTurn ring) :
    ring.recycled.length ≤ system.kernel.taken.length := by
  rw [inTurn.lent, List.length_append]
  exact Nat.le_add_right _ _

/-- What the kernel may still take. -/
theorem available (inTurn : system.InTurn ring) :
    ring.available system.kernel.head =
      ring.entries + ring.recycled.length - system.kernel.taken.length := by
  rw [inTurn.head]
  exact inTurn.inOrder.available inTurn.least inTurn.most

/-- The buffers of all completions that are not handled yet follow those that came back. -/
theorem waiting (inTurn : system.InTurn ring) :
    system.kernel.posted.flatMap Posted.bids =
      span ring.entries ring.recycled.length
        (system.kernel.posted.flatMap Posted.bids).length := by
  have parts := inTurn.around.symm.trans inTurn.lent
  have after := (span_split parts).2
  rw [Nat.zero_add] at after
  exact after

/-- The buffers of the next completions are the next in turn. -/
theorem next (inTurn : system.InTurn ring) {run rest : List Posted}
    (queue : system.kernel.posted = run ++ rest) :
    run.flatMap Posted.bids =
      span ring.entries ring.recycled.length (run.flatMap Posted.bids).length := by
  have parts := inTurn.waiting.symm
  rw [queue, List.flatMap_append] at parts
  exact (span_split parts).1

/-- The buffers that the kernel takes next are not among those still waiting. -/
theorem apart (inTurn : system.InTurn ring) {count : Nat}
    (enough : count ≤ ring.available system.kernel.head) {posted : Posted}
    (member : posted ∈ system.kernel.posted) {bid : Nat} (lent : bid ∈ posted.bids) :
    bid ∉ span ring.entries system.kernel.taken.length count := by
  have total : system.kernel.taken.length =
      ring.recycled.length + (system.kernel.posted.flatMap Posted.bids).length := by
    rw [← List.length_append, ← inTurn.lent]
  have among : bid ∈ system.kernel.posted.flatMap Posted.bids :=
    List.mem_flatMap.mpr ⟨posted, member, lent⟩
  rw [inTurn.waiting] at among
  rw [inTurn.available] at enough
  have most := inTurn.most
  rw [total]
  exact span_disjoint (by omega) among

theorem receive (inTurn : system.InTurn ring) (bytes : Bytes) (others : Nat) :
    (system.receive bytes others).InTurn ring := by
  have room : ring.available system.kernel.head ≤ ring.entries := by
    have least := inTurn.least
    rw [inTurn.available]
    omega
  unfold RingSystem.receive
  rw [inTurn.present]
  dsimp only
  rcases KernelRing.receive_cases inTurn.inOrder system.conn.cfg.recvMode
    (UserData.new .recv system.conn.token) bytes others system.kernel inTurn.head room with
    same | ⟨filled, posted, fills, enough, token, payload, bids, posts, done⟩
  · rw [same]
    exact inTurn
  rw [done]
  generalize ring.entriesFor system.conn.cfg.recvMode bytes.length = count at fills enough bids
  have taken : filled.taken.length = system.kernel.taken.length + count := by
    rw [fills.taken, List.length_append, span_length]
  refine ⟨inTurn.present, inTurn.inOrder, ?_, ?_, ?_, ?_, ?_, ?_, fills.sized inTurn.sized, ?_⟩
  case refine_1 =>
    dsimp only
    rw [fills.head, taken]
  case refine_2 =>
    dsimp only
    rw [taken, ← span_append, ← inTurn.around, fills.taken, Nat.zero_add]
  case refine_3 =>
    dsimp only
    rw [fills.taken, List.flatMap_append, List.flatMap_singleton, bids, ← List.append_assoc,
      ← inTurn.lent]
  case refine_4 =>
    have most := inTurn.most
    rw [inTurn.available] at enough
    dsimp only
    omega
  case refine_5 =>
    intro other member
    rcases List.mem_append.mp member with before | last
    · exact inTurn.fits other before
    · rw [List.mem_singleton.mp last]
      exact posts
  case refine_6 =>
    intro other member
    rcases List.mem_append.mp member with before | last
    · exact inTurn.recv other before
    · rw [List.mem_singleton.mp last, token]
      exact UserData.kind_new _ _
  case refine_7 =>
    intro other member entry lent
    rcases List.mem_append.mp member with before | last
    · -- the new bytes are in other buffers
      have bids : (other.loans ring).map Prod.fst = other.bids := other.loans_fst
      have outside : entry.1 ∈ other.bids := by
        rw [← bids]
        exact List.mem_map_of_mem lent
      show (filled.storage entry.1).take entry.2.length = entry.2
      rw [fills.kept entry.1 (inTurn.apart enough before outside)]
      exact inTurn.written other before entry lent
    · rw [List.mem_singleton.mp last, Posted.loans, bids, span_length, payload] at lent
      exact fills.written entry lent

theorem notify (inTurn : system.InTurn ring) (result : Int) (others : Nat) :
    (system.notify result others).InTurn ring := by
  refine ⟨inTurn.present, inTurn.inOrder, inTurn.head, inTurn.around, ?_, inTurn.most, ?_, ?_,
    inTurn.sized, ?_⟩
  · show system.kernel.taken = ring.recycled ++ (system.kernel.posted ++ [_]).flatMap Posted.bids
    rw [List.flatMap_append, List.flatMap_singleton, List.append_nil]
    exact inTurn.lent
  · intro other member
    rcases List.mem_append.mp member with before | last
    · exact inTurn.fits other before
    · rw [List.mem_singleton.mp last]
      exact .notice (KernelRing.bufferId_notify _ _ _ _) rfl
  · intro other member
    rcases List.mem_append.mp member with before | last
    · exact inTurn.recv other before
    · rw [List.mem_singleton.mp last]
      exact UserData.kind_new _ _
  · intro other member entry lent
    rcases List.mem_append.mp member with before | last
    · exact inTurn.written other before entry lent
    · rw [List.mem_singleton.mp last] at lent
      cases lent

theorem other (inTurn : system.InTurn ring) (change : ConnectionState → ConnectionState)
    (unregistered : Bool) :
    (system.other change unregistered).InTurn { ring with unregistered } := by
  have present : (system.other change unregistered).conn.bufRing =
      some { ring with unregistered } := by
    show system.conn.bufRing.map _ = _
    rw [inTurn.present]
    rfl
  have order : BufferRing.InOrder { ring with unregistered } :=
    ⟨inTurn.inOrder.power, inTurn.inOrder.size, inTurn.inOrder.slots, inTurn.inOrder.tail,
      inTurn.inOrder.given⟩
  exact ⟨present, order, inTurn.head, inTurn.around, inTurn.lent, inTurn.most,
    fun posted member => (inTurn.fits posted member).congr rfl rfl, inTurn.recv, inTurn.sized,
    inTurn.written⟩

/-- Completions leave the queue when their buffers have come back. -/
theorem settle (inTurn : system.InTurn ring) {run rest : List Posted}
    (queue : system.kernel.posted = run ++ rest) {conn : ConnectionState}
    (endpoint : conn.toEndpoint = system.conn.toEndpoint)
    (back : conn.bufRing = some (ring.recycleAll (run.flatMap Posted.bids))) :
    InTurn ⟨conn, { system.kernel with posted := rest }⟩
      (ring.recycleAll (run.flatMap Posted.bids)) := by
  obtain ⟨order, recycled⟩ := inTurn.inOrder.recycleAll (inTurn.next queue)
  have later {posted : Posted} (member : posted ∈ rest) : posted ∈ system.kernel.posted := by
    rw [queue]
    exact List.mem_append_right run member
  have cfg : conn.cfg = system.conn.cfg := congrArg Endpoint.cfg endpoint
  refine ⟨back, order, inTurn.head, ?_, ?_, ?_, ?_, ?_, ?_, ?_⟩
  · rw [BufferRing.recycleAll_entries]
    exact inTurn.around
  · rw [recycled, List.append_assoc, ← List.flatMap_append, ← queue]
    exact inTurn.lent
  · have most := inTurn.most
    rw [BufferRing.recycleAll_entries, recycled, List.length_append]
    dsimp only
    omega
  · intro posted member
    dsimp only
    rw [cfg]
    exact (inTurn.fits posted (later member)).congr (ring.recycleAll_entries _)
      (ring.recycleAll_bufSize _)
  · exact fun posted member => inTurn.recv posted (later member)
  · rw [BufferRing.recycleAll_bufSize]
    exact inTurn.sized
  · intro posted member
    rw [posted.loans_congr (ring.recycleAll_bufSize _)]
    exact inTurn.written posted (later member)

/-- A ring that has got back some of the buffers of the next completions. -/
theorem partly (inTurn : system.InTurn ring) {run rest : List Posted}
    (queue : system.kernel.posted = run ++ rest) (k : Nat) :
    (ring.recycleAll ((run.flatMap Posted.bids).take k)).Placed system.kernel := by
  have turn := inTurn.next queue
  generalize bids : run.flatMap Posted.bids = lent at turn ⊢
  have parts : span ring.entries ring.recycled.length lent.length =
      lent.take k ++ lent.drop k := by
    rw [List.take_append_drop, ← turn]
  obtain ⟨order, recycled⟩ := inTurn.inOrder.recycleAll (span_split parts).1
  have entries := ring.recycleAll_entries (lent.take k)
  generalize ring.recycleAll (lent.take k) = ring' at order recycled entries ⊢
  have longer : ring'.recycled.length = ring.recycled.length + (lent.take k).length := by
    rw [recycled, List.length_append]
  have waiting : system.kernel.taken.length =
      ring.recycled.length + (lent.length + (rest.flatMap Posted.bids).length) := by
    rw [inTurn.lent, queue, List.flatMap_append, bids, List.length_append, List.length_append]
  have fewer : (lent.take k).length ≤ lent.length := List.length_take_le' k lent
  have least : ring'.recycled.length ≤ system.kernel.taken.length := by omega
  have most : system.kernel.taken.length ≤ ring'.entries + ring'.recycled.length := by
    have before := inTurn.most
    omega
  refine ⟨order.slots, most, by omega, ?_⟩
  rw [inTurn.head]
  exact order.available least most

theorem returns (inTurn : system.InTurn ring) {run rest : List Posted}
    (queue : system.kernel.posted = run ++ rest) {loans : List Loan} {active : Prop}
    {handled : Handled}
    (back : handled.conn.bufRing = some (ring.recycleAll (run.flatMap Posted.bids)))
    (served : Loan.Serves (run.flatMap (Posted.loans ring)) loans active
      (∃ events, handled.result = .ok events)) :
    system.Returns ring run loans active handled where
  back := back
  once := (inTurn.inOrder.recycleAll (inTurn.next queue)).2
  placed := inTurn.partly queue
  memory := by
    intro entry member
    obtain ⟨posted, among, lent⟩ := List.mem_flatMap.mp member
    have waits : posted ∈ system.kernel.posted := by
      rw [queue]
      exact List.mem_append_left rest among
    exact inTurn.written posted waits entry lent
  whole := by
    have fits : ∀ posted ∈ run, posted.Fits ring system.conn.cfg.recvMode := by
      intro posted among
      apply inTurn.fits
      rw [queue]
      exact List.mem_append_left rest among
    clear queue back served
    induction run with
    | nil => rfl
    | cons posted run ih =>
        have here := (fits posted List.mem_cons_self).whole inTurn.inOrder.size
        have there := ih fun later among => fits later (List.mem_cons_of_mem posted among)
        rw [List.flatMap_cons, List.map_append, List.flatten_append, List.flatMap_cons, here,
          there]
  served := served

variable [AcceptDigest]

end InTurn

/-! ## Runs -/

section Runs

variable {system : RingSystem} {ring : BufferRing}

variable [AcceptDigest]

end Runs

end RingSystem

namespace Sample

attribute [local instance] rustls Ws.Sample.digest

/-- Two buffers of four bytes. -/
def ring : BufferRing := ⟨0, 0, 2, 4, 2, [0, 1], false, []⟩

def ringConfig : ConnectionConfig :=
  { host := Ws.Sample.config.host, port := 80, path := Ws.Sample.config.path, useTls := false,
    bufRingSlotSize := 4, bufRingEntries := 2 }

/-- An open connection whose ring is new. -/
def ringSystem : RingSystem where
  conn :=
    { identity := ⟨0, 0, 0⟩, cfg := ringConfig, socket := 3, addr := .v4 0x7F000001 80, tls := none,
      ws := Ws.Sample.opened, state := .isOpen, bufRing := some ring,
      plainRecvBatchScratch := [], tlsPendingOut := [], multishotArmed := true,
      wsHandshakeBegun := true, wsIngress := .clean, ingressStats := {}, clock := ⟨id, Int.ofNat, 0, 0⟩,
      markedRecvSequence := 0, markedMessageSequence := 0, observabilityHistograms := none }
  kernel := ⟨0, fun _ => [0, 0, 0, 0], [], []⟩

/-- A byte arrives, and the connection closes before the completion is handled. -/
def closing : List RingLabel := [.receive [0x41] 1, .other (fun conn => { conn with state := .closed }) false]

def closed : RingSystem := (ringMachine.run ringSystem closing).1

end Sample

attribute [local instance] Sample.rustls Ws.Sample.digest

end Talaris
