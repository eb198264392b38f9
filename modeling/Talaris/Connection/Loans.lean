import Talaris.Connection.Laws
import Talaris.Proactor.Provided

/-!
# Buffers in the hands of a handler

Every receive handler looks at the buffers of its completions one after the other and gives
each of them back.  The loans of a call list these buffers in the order in which the handler
gives them back, with the bytes cut from each and whether they are handed on.  Bytes are held
back after an error and when the connection has closed; the buffers go back all the same.
-/

namespace Talaris

open Talaris.Basis
open Talaris.Ws

universe u v

/-- A buffer in the hands of a handler. -/
structure Loan where
  bid : Nat
  slice : Bytes
  handed : Bool
  deriving DecidableEq, Repr

namespace Loan

/-- The slices handed on. -/
def heard (loans : List Loan) : List Bytes := (loans.filter Loan.handed).map Loan.slice

/-- The buffer and its bytes. -/
def entry (loan : Loan) : Nat × Bytes := (loan.bid, loan.slice)

/-- A buffer that is only given back. -/
def unread (bid : Nat) : Loan := ⟨bid, [], false⟩

@[simp] theorem heard_nil : heard [] = [] := rfl

theorem heard_cons (loan : Loan) (loans : List Loan) :
    heard (loan :: loans) = (if loan.handed then [loan.slice] else []) ++ heard loans := by
  unfold heard
  cases handed : loan.handed <;> simp [handed]

section Lend

variable {σ : Type u} {α : Type v} {view : α → Nat × Bytes} {step : σ → α → σ}
  {failed : σ → Bool}

/-- One buffer after the other.  Its bytes are handed on unless the loop has failed. -/
def lend (view : α → Nat × Bytes) (step : σ → α → σ) (failed : σ → Bool) :
    σ → List α → List Loan
  | _, [] => []
  | state, item :: items =>
      ⟨(view item).1, (view item).2, !failed state⟩ ::
        lend view step failed (step state item) items

theorem lend_entry (state : σ) (items : List α) :
    (lend view step failed state items).map entry = items.map view := by
  induction items generalizing state with
  | nil => rfl
  | cons item items ih => rw [lend, List.map_cons, List.map_cons, ih, entry]

/-- Only what is handed on has an effect. -/
theorem foldl_heard {effect : σ → Bytes → σ} {slices : List (Nat × Bytes)}
    (inert : ∀ state slice, failed state → effect state slice = state) (state : σ) :
    (slices.map Prod.snd).foldl effect state =
      (heard (lend id (fun state item => effect state item.2) failed state slices)).foldl effect
        state := by
  induction slices generalizing state with
  | nil => rfl
  | cons item slices ih =>
      rw [List.map_cons, List.foldl_cons, lend, heard_cons, ih]
      cases bad : failed state with
      | false => rfl
      | true =>
          rw [inert state item.2 bad]
          rfl

end Lend

end Loan

/-! ## The loans of each handler -/

/-- A completion with bytes in a buffer. -/
def Completion.Carries (c : Completion) : Prop := 0 < c.result ∧ c.bufferId.isSome

/-- The first buffer of a completion and its bytes. -/
def Completion.lent (c : Completion) : Nat × Bytes :=
  (c.bufferId.getD 0, c.bytes 0 c.result.toNat)

/-- How a handler deals with the buffers lent to it: `active` says that the connection had not
closed, `ok` that the handler answers without an error. -/
structure Loan.Serves (lent : List (Nat × Bytes)) (loans : List Loan) (active ok : Prop) :
    Prop where
  returned : loans.map Loan.bid = lent.map Prod.fst
  cut : active → loans.map Loan.entry = lent
  first : Loan.heard loans <+: lent.map Prod.snd
  whole : active → ok → Loan.heard loans = lent.map Prod.snd
  silent : ¬ active → Loan.heard loans = []

namespace ConnectionState

section Handlers

variable [Rustls] [AcceptDigest]

/-- The loans of a run of data completions.  A copied run puts the bytes of every completion
into the scratch buffer; otherwise the buffers are only given back after an error. -/
def runLoans (conn : ConnectionState) (pump : PumpKind) (completions : List Completion) :
    List Loan :=
  match if pump.isMarked then none else conn.plainRecvBatchCopyLen completions with
  | some _ => completions.map fun c => ⟨c.lent.1, c.lent.2, true⟩
  | none =>
      Loan.lend Completion.lent (BatchRun.step pump) (fun run => run.firstErr.isSome)
        ⟨conn.recordPlainRecvBatch completions.length none, {}, none⟩ completions

end Handlers

/-! ## Every loan goes back -/

section Rings

variable [Rustls]

variable [AcceptDigest]

/-- A run looks at one buffer for each completion. -/
theorem runLoans_entry (conn : ConnectionState) (pump : PumpKind)
    (completions : List Completion) :
    (conn.runLoans pump completions).map Loan.entry = completions.map Completion.lent := by
  unfold runLoans
  split
  next =>
    rw [List.map_map]
    rfl
  next => exact Loan.lend_entry _ _

end Rings

/-! ## What is handed on -/

section Slices

variable [AcceptDigest]

variable [Rustls]

end Slices

end ConnectionState

end Talaris
