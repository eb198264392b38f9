import Talaris.Tls

/-!
# The proactor and the kernel behind it

`Proactor` is the thin layer over io_uring.  Its model includes what the kernel keeps
for the ring: the submission queue, the operations in flight, the completions not yet
drained and the registered buffer rings.  The outcome of a system call is the next entry
of `faults`; everything else the kernel decides is an argument of `post`.
-/

namespace Talaris

open Talaris.Ws

/-! ## Operations and completions -/

inductive OpKind where
  | connect
  | recv
  | send
  | close
  | nop
  deriving DecidableEq, Repr

def OpKind.asU8 : OpKind → Nat
  | connect => 1
  | recv => 2
  | send => 3
  | close => 4
  | nop => 5

def OpKind.fromU8 : Nat → Option OpKind
  | 1 => some connect
  | 2 => some recv
  | 3 => some send
  | 4 => some close
  | 5 => some nop
  | _ => none

structure UserData where
  raw : Nat
  deriving DecidableEq, Repr

namespace UserData

def tokenMask : Nat := 0x00FFFFFFFFFFFFFF

def new (kind : OpKind) (token : Nat) : UserData := ⟨kind.asU8 <<< 56 ||| (token &&& tokenMask)⟩

def kind (userData : UserData) : Option OpKind := OpKind.fromU8 (userData.raw >>> 56 % 2 ^ 8)

def token (userData : UserData) : Nat := userData.raw &&& tokenMask

end UserData

/-- `ENOBUFS` -/
def enobufs : Nat := 105

/-- `EEXIST` -/
def eexist : Nat := 17

/-- `ENOENT` -/
def enoent : Nat := 2

/-- A completion.  `payload` is not in the source: it holds what the kernel wrote to the
buffers that the completion covers, one after the other. -/
structure Completion where
  userData : UserData
  result : Int
  flags : Nat
  payload : Bytes := []
  deriving DecidableEq, Repr

namespace Completion

def toResult (c : Completion) : Except IoError Nat :=
  if 0 ≤ c.result then .ok c.result.toNat else .error (.os (-c.result).toNat)

/-- `IORING_CQE_F_BUFFER` and the buffer id in the upper half. -/
def bufferId (c : Completion) : Option Nat :=
  if c.flags &&& 1 ≠ 0 then some (c.flags >>> 16 % 2 ^ 16) else none

/-- `IORING_CQE_F_MORE` -/
def hasMore (c : Completion) : Bool := c.flags &&& 2 ≠ 0

/-- Bytes of the covered buffers. -/
def bytes (c : Completion) (start len : Nat) : Bytes :=
  (List.range len).map fun i => c.payload.getD (start + i) 0

end Completion

inductive SocketAddr where
  | v4 (ip : Nat) (port : Nat)
  | v6 (ip : Nat) (port : Nat)
  deriving DecidableEq, Repr

/-- A submission.  The pointer of a send is named by the version of `send_buf` it points
into and the offset; `bytes` is what stood there at the push. -/
inductive Sqe where
  | connect (fd : Nat) (addr : SocketAddr) (userData : UserData)
  | send (fd : Nat) (version head : Nat) (bytes : Bytes) (userData : UserData)
  | recv (fd : Nat) (bgid : Nat) (bundle : Bool) (userData : UserData)
  deriving DecidableEq, Repr

def Sqe.userData : Sqe → UserData
  | connect _ _ userData | send _ _ _ _ userData | recv _ _ _ userData => userData

/-- A multishot receive; the other operations post once. -/
def Sqe.isRecv : Sqe → Bool
  | recv .. => true
  | connect .. | send .. => false

/-! ## The proactor -/

inductive ProactorError where
  | invalidConfig (message : String)
  | sqFull
  | submit (error : IoError)
  deriving DecidableEq, Repr

/-- Setup flags as bits: cooperative taskrun, taskrun flag, single issuer, deferred
taskrun. -/
structure ProactorConfig where
  sqEntries : Nat := 256
  cqEntries : Option Nat := none
  setupFlags : Nat := 0
  deriving DecidableEq, Repr

namespace ProactorConfig

def contains (config : ProactorConfig) (flag : Nat) : Bool := config.setupFlags &&& flag = flag

/-- `is_power_of_two`, which is false of zero. -/
def isPowerOfTwo (n : Nat) : Bool := n ≠ 0 && n &&& (n - 1) = 0

def validate (config : ProactorConfig) : Except ProactorError Unit :=
  if config.sqEntries = 0 ∨ !isPowerOfTwo config.sqEntries then
    .error (.invalidConfig "sq_entries must be a non-zero power of two")
  else if config.cqEntries.any (· ≤ config.sqEntries) then
    .error (.invalidConfig "cq_entries must be greater than sq_entries")
  else if config.cqEntries.any (fun n => !isPowerOfTwo n) then
    .error (.invalidConfig "cq_entries must be a power of two")
  else if config.contains 8 ∧ !config.contains 4 then
    .error (.invalidConfig "DEFER_TASKRUN requires SINGLE_ISSUER")
  else if config.contains 2 ∧ !(config.contains 1 || config.contains 8) then
    .error (.invalidConfig "TASKRUN_FLAG requires COOP_TASKRUN or DEFER_TASKRUN")
  else if config.contains 1 ∧ config.contains 8 then
    .error (.invalidConfig "COOP_TASKRUN and DEFER_TASKRUN are separate taskrun modes")
  else .ok ()

end ProactorConfig

/-- The ring and the kernel's side of it.  `registered` maps a buffer group to the memory of
its ring; `taken` is not in the source: it records every buffer the kernel took, with the
completion that reports it. -/
structure Proactor where
  sqEntries : Nat
  bundle : Bool
  sq : List Sqe
  ops : List Sqe
  cq : List (Completion × Option Sqe)
  registered : List (Nat × Nat)
  nextRingMem : Nat
  faults : Nat → Option IoError
  calls : Nat
  taken : List (Nat × Completion)

namespace Proactor

/-- A new ring; the kernel's features and faults are the environment's. -/
def new (config : ProactorConfig) (bundle : Bool) (faults : Nat → Option IoError) :
    Except ProactorError Proactor :=
  match config.validate with
  | .error e => .error e
  | .ok () => .ok ⟨config.sqEntries, bundle, [], [], [], [], 0, faults, 0, []⟩

def supportsRecvsendBundle (proactor : Proactor) : Bool := proactor.bundle

/-- The next system call. -/
def syscall (proactor : Proactor) : Proactor × Option IoError :=
  ({ proactor with calls := proactor.calls + 1 }, proactor.faults proactor.calls)

def push (proactor : Proactor) (sqe : Sqe) : Proactor × Except ProactorError Unit :=
  if proactor.sq.length < proactor.sqEntries then
    ({ proactor with sq := proactor.sq ++ [sqe] }, .ok ())
  else (proactor, .error .sqFull)

/-- A group id in use is refused. -/
def registerBufRing (proactor : Proactor) (ringMem bgid : Nat) :
    Proactor × Except ProactorError Unit :=
  match proactor.syscall with
  | (proactor, some e) => (proactor, .error (.submit e))
  | (proactor, none) =>
      if proactor.registered.any (fun entry => entry.1 = bgid) then
        (proactor, .error (.submit (.os eexist)))
      else ({ proactor with registered := proactor.registered ++ [(bgid, ringMem)] }, .ok ())

def unregisterBufRing (proactor : Proactor) (bgid : Nat) : Proactor × Except ProactorError Unit :=
  match proactor.syscall with
  | (proactor, some e) => (proactor, .error (.submit e))
  | (proactor, none) =>
      if proactor.registered.any (fun entry => entry.1 = bgid) then
        ({ proactor with registered := proactor.registered.filter fun entry => entry.1 ≠ bgid },
          .ok ())
      else (proactor, .error (.submit (.os enoent)))

/-- Hand every queued submission to the kernel. -/
def submit (proactor : Proactor) : Proactor × Except ProactorError Unit :=
  match proactor.syscall with
  | (proactor, some e) => (proactor, .error (.submit e))
  | (proactor, none) => ({ proactor with ops := proactor.ops ++ proactor.sq, sq := [] }, .ok ())

/-- `submit_and_wait`; how long it blocks does not show here. -/
def waitForCqe (proactor : Proactor) (waitNr : Nat) : Proactor × Except ProactorError Unit :=
  if waitNr = 0 then (proactor, .ok ()) else proactor.submit

def drainCompletions (proactor : Proactor) : Proactor × List Completion :=
  ({ proactor with cq := [] }, proactor.cq.map Prod.fst)

/-! ### The kernel -/

/-- What the kernel decides about a completion. -/
structure Post where
  op : Nat
  result : Int
  flags : Nat
  payload : Bytes
  deriving DecidableEq, Repr

def Post.completion (post : Post) (sqe : Sqe) : Completion :=
  ⟨sqe.userData, post.result, post.flags, post.payload⟩

/-- The memory of the ring that a receive with a buffer took it from. -/
def ringOf (proactor : Proactor) (sqe : Sqe) (c : Completion) : Option Nat :=
  match sqe, c.bufferId with
  | .recv _ bgid _ _, some _ => (proactor.registered.find? fun entry => entry.1 = bgid).map Prod.snd
  | _, _ => none

/-- The operation with this index completes.  A receive stays armed as long as it posts
`F_MORE`, also after its socket was closed. -/
def post (proactor : Proactor) (post : Post) : Proactor :=
  match proactor.ops[post.op]? with
  | none => proactor
  | some sqe =>
      let c := post.completion sqe
      { proactor with
        ops := if sqe.isRecv && c.hasMore then proactor.ops else proactor.ops.eraseIdx post.op
        cq := proactor.cq ++ [(c, some sqe)]
        taken := proactor.taken ++ ((proactor.ringOf sqe c).map fun ringMem => (ringMem, c)).toList }

/-- A completion that no operation accounts for. -/
def postSpurious (proactor : Proactor) (c : Completion) : Proactor :=
  { proactor with cq := proactor.cq ++ [(c, none)] }

/-- Submissions whose completion has not been drained. -/
def outstanding (proactor : Proactor) : List Sqe :=
  proactor.sq ++ proactor.ops ++ proactor.cq.filterMap fun entry =>
    entry.2.filter fun sqe => !sqe.isRecv

end Proactor

/-! ## Provided buffer rings -/

inductive BufferRingError where
  | invalidEntryCount (entries : Nat)
  | invalidBufSize (size : Nat)
  | proactor (error : ProactorError)
  deriving DecidableEq, Repr

/-- A ring of provided buffers.  `slots` holds the buffer id of each entry; `recycled` is not
in the source: it records the ids given back, in order. -/
structure BufferRing where
  ringMem : Nat
  bgid : Nat
  entries : Nat
  bufSize : Nat
  localTail : Nat
  slots : List Nat
  unregistered : Bool
  recycled : List Nat
  deriving DecidableEq, Repr

namespace BufferRing

def new (proactor : Proactor) (bgid entries bufSize : Nat) :
    Proactor × Except BufferRingError BufferRing :=
  if entries = 0 ∨ !ProactorConfig.isPowerOfTwo entries then
    (proactor, .error (.invalidEntryCount entries))
  else if bufSize = 0 then (proactor, .error (.invalidBufSize bufSize))
  else
    let ringMem := proactor.nextRingMem
    match { proactor with nextRingMem := ringMem + 1 }.registerBufRing ringMem bgid with
    | (proactor, .error e) => (proactor, .error (.proactor e))
    | (proactor, .ok ()) =>
        (proactor, .ok ⟨ringMem, bgid, entries, bufSize, entries, List.range entries, false, []⟩)

/-- Give a buffer back.  An id out of range is a panic of the source, so no run goes on
from it. -/
def recycle (ring : BufferRing) (bid : Nat) : BufferRing :=
  if bid < ring.entries then
    { ring with
      slots := ring.slots.set (ring.localTail &&& (ring.entries - 1)) bid
      localTail := (ring.localTail + 1) % 2 ^ 16
      recycled := ring.recycled ++ [bid] }
  else ring

def unregister (ring : BufferRing) (proactor : Proactor) :
    Proactor × BufferRing × Except BufferRingError Unit :=
  if ring.unregistered then (proactor, ring, .ok ())
  else
    match proactor.unregisterBufRing ring.bgid with
    | (proactor, .error e) => (proactor, ring, .error (.proactor e))
    | (proactor, .ok ()) => (proactor, { ring with unregistered := true }, .ok ())

end BufferRing

end Talaris
