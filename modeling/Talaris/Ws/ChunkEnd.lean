import Talaris.Ws.Progress

/-!
# Chunk-end marks

A batch drain marks the batch that ends its ingress chunk.  Batches of direct frames
get the mark when the run of direct frames ends with the chunk; a message of the
general path goes out in a batch of its own that always bears it.  `Decoded.MarksEnd`
says for which frames this leaves exactly the last batch marked.
-/

namespace Talaris.Ws

open Talaris.Basis

/-! ## What decides the marks -/

/-- Marks of the delivered batches, and events in the open one. -/
structure Marks where
  flags : List Bool
  pending : Nat
  deriving DecidableEq, Repr

/-- The effect of a batch drain on the marks. -/
def marksOps : SinkOps Marks where
  push marks _ :=
    if marks.pending = dataEventBatchCapacity then ⟨marks.flags ++ [false], 1⟩
    else { marks with pending := marks.pending + 1 }
  flush chunkEnd marks :=
    if marks.pending = 0 then marks else ⟨marks.flags ++ [chunkEnd], 0⟩
  single marks _ := { marks with flags := marks.flags ++ [true] }

section Views

variable {σ τ : Type}

/-- A view of sinks that the operations of both sides respect. -/
structure SinkOps.Hom (ops : SinkOps σ) (ops' : SinkOps τ) (view : σ → τ) : Prop where
  push : ∀ sink event, view (ops.push sink event) = ops'.push (view sink) event
  flush : ∀ chunkEnd sink, view (ops.flush chunkEnd sink) = ops'.flush chunkEnd (view sink)
  single : ∀ sink event, view (ops.single sink event) = ops'.single (view sink) event

variable {ops : SinkOps σ} {ops' : SinkOps τ} {view : σ → τ}

theorem SinkOps.Hom.deliver (hom : ops.Hom ops' view) (sink : σ) (items : List Item) :
    view (ops.deliver sink items) = ops'.deliver (view sink) items := by
  induction items generalizing sink with
  | nil => rfl
  | cons item items ih =>
      simp only [SinkOps.deliver]
      split
      next => rw [ih, hom.flush]
      next =>
        split
        next => rw [ih, hom.push]
        next => rw [ih, hom.single, hom.flush]

theorem SinkOps.Hom.delivered (hom : ops.Hom ops' view) (sink : σ) (d : Decoded) :
    view (ops.delivered sink d) = ops'.delivered (view sink) d := by
  rw [SinkOps.delivered, hom.flush, hom.deliver]
  rfl

end Views

section Batches

variable {ε : Type}

/-- The marks of a batch sink. -/
def marksOf (calls : List (EventBatch ε)) (batch : EventBatch ε) : Marks :=
  ⟨calls.map EventBatch.isChunkEnd, batch.events.length⟩

end Batches

theorem dataEventBatchOps_marks :
    dataEventBatchOps.Hom marksOps fun sink => marksOf sink.calls sink.batch where
  push sink event := by
    by_cases full : sink.batch.isFull = true
    · have length := sink.batch.isFull_iff.mp full
      simp [dataEventBatchOps, marksOps, marksOf, full, BatchSink.flushDataEventBatch,
        EventBatch.nonempty_of_isFull full, length, EventBatch.isChunkEnd]
    · have length := mt sink.batch.isFull_iff.mpr full
      simp [dataEventBatchOps, marksOps, marksOf, full, length, EventBatch.length_push full]
  flush chunkEnd sink := by
    cases events : sink.batch.events <;>
      simp [dataEventBatchOps, marksOps, marksOf, BatchSink.flushDataEventBatch, events,
        EventBatch.isChunkEnd, EventBatch.empty]
  single sink event := by
    simp [dataEventBatchOps, marksOps, marksOf, EventBatch.single, EventBatch.isChunkEnd]

theorem markedDataEventBatchOps_marks (baseMeta : DataEventMeta) :
    (markedDataEventBatchOps baseMeta).Hom marksOps fun sink => marksOf sink.calls sink.batch where
  push sink event := by
    by_cases full : sink.batch.isFull = true
    · have length := sink.batch.isFull_iff.mp full
      simp [markedDataEventBatchOps, marksOps, marksOf, full,
        MarkedBatchSink.flushMarkedDataEventBatch, EventBatch.nonempty_of_isFull full, length,
        EventBatch.isChunkEnd]
    · have length := mt sink.batch.isFull_iff.mpr full
      simp [markedDataEventBatchOps, marksOps, marksOf, full, length, EventBatch.length_push full]
  flush chunkEnd sink := by
    cases events : sink.batch.events <;>
      simp [markedDataEventBatchOps, marksOps, marksOf, MarkedBatchSink.flushMarkedDataEventBatch,
        events, EventBatch.isChunkEnd, EventBatch.empty]
  single sink event := by
    simp [markedDataEventBatchOps, marksOps, marksOf, EventBatch.single, EventBatch.isChunkEnd]

/-! ## Frames of a chunk -/

/-- The frame completes a data message. -/
def Item.isMessage (item : Item) : Bool := (SinkOps.message? item).isSome

/-- The frames for which the last batch, and no other, gets the mark.  Either all messages take
the direct path, the last frame completes one, and the bytes behind it do not begin a frame of
the general path; or exactly one message takes the general path, and it is the last. -/
def Decoded.MarksEnd (d : Decoded) : Prop :=
  (∃ front last, d.items = front ++ [last] ∧ last.isMessage = true ∧
      (∀ item ∈ d.items, item.isMessage = true → item.direct = true) ∧
      SinkOps.tailFlag d.rest = true) ∨
    ∃ front item back, d.items = front ++ item :: back ∧ item.isMessage = true ∧
      item.direct = false ∧ (∀ other ∈ front, other.isMessage = true → other.direct = true) ∧
      ∀ other ∈ back, other.isMessage = false

/-- The last flag is set, and no other. -/
def ExactFlags (flags : List Bool) : Prop := ∃ front, flags = front ++ [true] ∧ true ∉ front

/-- Exactly the last of the batches is a chunk end. -/
def ExactEnd {ε : Type} (calls : List (EventBatch ε)) : Prop :=
  ∃ front last, calls = front ++ [last] ∧ last.isChunkEnd = true ∧
    ∀ batch ∈ front, batch.isChunkEnd = false

theorem exactEnd_iff {ε : Type} (calls : List (EventBatch ε)) :
    ExactEnd calls ↔ ExactFlags (calls.map EventBatch.isChunkEnd) := by
  constructor
  · rintro ⟨front, last, rfl, marked, others⟩
    refine ⟨front.map EventBatch.isChunkEnd, by simp [marked], ?_⟩
    intro found
    obtain ⟨batch, member, flag⟩ := List.mem_map.mp found
    simp [others batch member] at flag
  · rintro ⟨flags, split, others⟩
    obtain ⟨front, back, rfl, rfl, ends⟩ := List.map_eq_append_iff.mp split
    obtain ⟨last, rfl, marked⟩ := List.map_eq_singleton_iff.mp ends
    refine ⟨front, last, rfl, marked, fun batch member => ?_⟩
    cases flag : batch.isChunkEnd with
    | false => rfl
    | true => exact absurd (List.mem_map.mpr ⟨batch, member, flag⟩) others

namespace Marks

/-- Batches delivered once the open one is flushed. -/
def weight (marks : Marks) : Nat := marks.flags.length + if marks.pending = 0 then 0 else 1

theorem length_flush (chunkEnd : Bool) (marks : Marks) :
    (marksOps.flush chunkEnd marks).flags.length = marks.weight := by
  unfold weight marksOps
  dsimp only
  split <;> simp_all

end Marks

/-! ### One frame -/

section Frame

variable (marks : Marks) (item : Item)

theorem deliver_one_quiet (quiet : item.isMessage = false) :
    marksOps.deliver marks [item] = marksOps.flush false marks := by
  have none : SinkOps.message? item = none := by simpa [Item.isMessage] using quiet
  simp [SinkOps.deliver, none]

theorem deliver_one_direct (message : item.isMessage = true) (direct : item.direct = true) :
    marksOps.deliver marks [item] =
      if marks.pending = dataEventBatchCapacity then ⟨marks.flags ++ [false], 1⟩
      else { marks with pending := marks.pending + 1 } := by
  obtain ⟨data, found⟩ := Option.isSome_iff_exists.mp message
  simp [SinkOps.deliver, found, direct, marksOps]

theorem deliver_one_general (message : item.isMessage = true) (general : item.direct = false) :
    marksOps.deliver marks [item] =
      ⟨(marksOps.flush false marks).flags ++ [true], (marksOps.flush false marks).pending⟩ := by
  obtain ⟨data, found⟩ := Option.isSome_iff_exists.mp message
  simp [SinkOps.deliver, found, general, marksOps]

theorem flush_pending (chunkEnd : Bool) : (marksOps.flush chunkEnd marks).pending = 0 := by
  simp only [marksOps]
  split <;> simp_all

theorem flush_flags (chunkEnd : Bool) :
    (marksOps.flush chunkEnd marks).flags =
      marks.flags ++ if marks.pending = 0 then [] else [chunkEnd] := by
  simp only [marksOps]
  split <;> simp_all

/-- A batch is open behind a direct message, and only there. -/
theorem deliver_one_pending :
    (marksOps.deliver marks [item]).pending ≠ 0 ↔ item.isMessage = true ∧ item.direct = true := by
  cases message : item.isMessage with
  | false => simp [deliver_one_quiet marks item message, flush_pending]
  | true =>
      cases direct : item.direct with
      | false => simp [deliver_one_general marks item message direct, flush_pending]
      | true =>
          rw [deliver_one_direct marks item message direct]
          split <;> simp

/-- Flags are appended; they are unset unless the general path delivers. -/
theorem deliver_one_flags :
    ∃ flags, (marksOps.deliver marks [item]).flags = marks.flags ++ flags ∧
      ((item.isMessage = true → item.direct = true) → true ∉ flags) := by
  cases message : item.isMessage with
  | false =>
      refine ⟨_, (deliver_one_quiet marks item message).symm ▸ flush_flags marks false, ?_⟩
      split <;> simp
  | true =>
      cases direct : item.direct with
      | false =>
          refine ⟨(if marks.pending = 0 then [] else [false]) ++ [true], ?_, by simp⟩
          rw [deliver_one_general marks item message direct, flush_flags, List.append_assoc]
      | true =>
          rw [deliver_one_direct marks item message direct]
          split
          next => exact ⟨[false], rfl, by simp⟩
          next => exact ⟨[], by simp, by simp⟩

/-- No frame takes a batch back, and one with a message adds one. -/
theorem deliver_one_weight :
    marks.weight ≤ (marksOps.deliver marks [item]).weight ∧
      (item.isMessage = true → marks.flags.length < (marksOps.deliver marks [item]).weight) := by
  cases message : item.isMessage with
  | false =>
      rw [deliver_one_quiet marks item message]
      refine ⟨?_, by simp⟩
      simp [Marks.weight, flush_pending, flush_flags]
      split <;> simp
  | true =>
      cases direct : item.direct with
      | false =>
          rw [deliver_one_general marks item message direct]
          simp only [Marks.weight, flush_pending, flush_flags, List.length_append]
          split <;> simp
      | true =>
          rw [deliver_one_direct marks item message direct]
          split
          next => simp [Marks.weight]; split <;> omega
          next => simp [Marks.weight]; split <;> omega

end Frame

/-! ### A list of frames -/

theorem deliver_cons (marks : Marks) (item : Item) (items : List Item) :
    marksOps.deliver marks (item :: items) =
      marksOps.deliver (marksOps.deliver marks [item]) items :=
  SinkOps.deliver_append marks [item] items

theorem deliver_flags (marks : Marks) (items : List Item) :
    ∃ flags, (marksOps.deliver marks items).flags = marks.flags ++ flags ∧
      ((∀ item ∈ items, item.isMessage = true → item.direct = true) → true ∉ flags) := by
  induction items generalizing marks with
  | nil => exact ⟨[], by simp [SinkOps.deliver], by simp⟩
  | cons item items ih =>
      obtain ⟨first, one, unset⟩ := deliver_one_flags marks item
      obtain ⟨rest, more, unsetRest⟩ := ih (marksOps.deliver marks [item])
      refine ⟨first ++ rest, ?_, fun direct => ?_⟩
      · rw [deliver_cons, more, one, List.append_assoc]
      · have head := unset (direct item (by simp))
        have tail := unsetRest fun other member => direct other (by simp [member])
        simp [head, tail]

theorem deliver_weight (marks : Marks) (items : List Item) :
    marks.weight ≤ (marksOps.deliver marks items).weight := by
  induction items generalizing marks with
  | nil => exact Nat.le_refl _
  | cons item items ih =>
      rw [deliver_cons]
      exact Nat.le_trans (deliver_one_weight marks item).1 (ih _)

theorem Marks.length_le_weight (marks : Marks) : marks.flags.length ≤ marks.weight :=
  Nat.le_add_right _ _

/-- With a message among the frames, a batch is added. -/
theorem deliver_weight_message (marks : Marks) {items : List Item}
    (message : ∃ item ∈ items, item.isMessage = true) :
    marks.flags.length < (marksOps.deliver marks items).weight := by
  obtain ⟨item, member, isMessage⟩ := message
  obtain ⟨front, back, rfl⟩ := List.append_of_mem member
  obtain ⟨flags, kept, -⟩ := deliver_flags marks front
  have grows := (deliver_one_weight (marksOps.deliver marks front) item).2 isMessage
  have rest := deliver_weight (marksOps.deliver (marksOps.deliver marks front) [item]) back
  have longer : marks.flags.length ≤ (marksOps.deliver marks front).flags.length := by
    rw [kept, List.length_append]
    omega
  rw [SinkOps.deliver_append, deliver_cons]
  omega

/-! ## When the marks are exact -/

theorem marksOps_settled {marks : Marks} (closed : marks.pending = 0) : marksOps.Settled marks := by
  intro chunkEnd
  simp [marksOps, closed]

/-- The first message of the general path splits the frames. -/
theorem direct_or_split (items : List Item) :
    (∀ item ∈ items, item.isMessage = true → item.direct = true) ∨
      ∃ front item back, items = front ++ item :: back ∧ item.isMessage = true ∧
        item.direct = false ∧ ∀ other ∈ front, other.isMessage = true → other.direct = true := by
  induction items with
  | nil => simp
  | cons item items ih =>
      by_cases general : item.isMessage = true ∧ item.direct = false
      · exact .inr ⟨[], item, items, rfl, general.1, general.2, by simp⟩
      · have head : item.isMessage = true → item.direct = true := by
          intro message
          by_contra notDirect
          exact general ⟨message, by simpa using notDirect⟩
        obtain all | ⟨front, other, back, rfl, message, path, before⟩ := ih
        · exact .inl (by simpa using ⟨head, all⟩)
        · exact .inr ⟨item :: front, other, back, rfl, message, path, by simpa using ⟨head, before⟩⟩

theorem not_exactFlags {front back : List Bool} (more : back ≠ []) :
    ¬ ExactFlags (front ++ true :: back) := by
  rintro ⟨others, split, unset⟩
  obtain ⟨rest, last, rfl⟩ : ∃ rest last, back = rest ++ [last] :=
    ⟨back.dropLast, back.getLast more, (List.dropLast_append_getLast more).symm⟩
  have regrouped : (front ++ true :: rest) ++ [last] = others ++ [true] := by
    simpa using split
  obtain ⟨same, -⟩ := List.append_inj' regrouped rfl
  exact unset (by simp [← same])

/-- All messages take the direct path: the last batch is open at the end of the run. -/
theorem exactFlags_of_direct (d : Decoded)
    (direct : ∀ item ∈ d.items, item.isMessage = true → item.direct = true) :
    ExactFlags (marksOps.delivered ⟨[], 0⟩ d).flags ↔ d.MarksEnd := by
  obtain ⟨flags, kept, unset⟩ := deliver_flags ⟨[], 0⟩ d.items
  rw [List.nil_append] at kept
  have opens (front : List Item) (last : Item) (split : d.items = front ++ [last]) :
      (marksOps.deliver ⟨[], 0⟩ d.items).pending ≠ 0 ↔ last.isMessage = true ∧ last.direct = true := by
    rw [split, SinkOps.deliver_append]
    exact deliver_one_pending _ last
  rw [SinkOps.delivered, flush_flags, kept]
  by_cases closed : (marksOps.deliver ⟨[], 0⟩ d.items).pending = 0
  · rw [if_pos closed, List.append_nil]
    constructor
    · rintro ⟨front, rfl, -⟩
      exact absurd (by simp) (unset direct)
    · rintro (⟨front, last, split, message, all, -⟩ | ⟨front, item, back, split, message, general, -⟩)
      · have path := all last (by simp [split]) message
        exact absurd closed ((opens front last split).mpr ⟨message, path⟩)
      · have path := direct item (by simp [split]) message
        simp [general] at path
  · rw [if_neg closed]
    obtain ⟨front, last, split⟩ : ∃ front last, d.items = front ++ [last] := by
      have nonempty : d.items ≠ [] := by
        intro empty
        simp [empty, SinkOps.deliver] at closed
      exact ⟨d.items.dropLast, d.items.getLast nonempty, (List.dropLast_append_getLast nonempty).symm⟩
    constructor
    · rintro ⟨others, same, -⟩
      obtain ⟨-, tail⟩ := List.append_inj' same rfl
      have message := ((opens front last split).mp closed).1
      exact .inl ⟨front, last, split, message, direct, by simpa using tail⟩
    · rintro (⟨-, -, -, -, -, tail⟩ | ⟨front, item, back, split, message, general, -⟩)
      · exact ⟨flags, by rw [tail], unset direct⟩
      · have path := direct item (by simp [split]) message
        simp [general] at path

/-- Two ways to split a list of frames at a message of the general path. -/
theorem split_unique {front front' back back' : List Item} {item item' : Item}
    (same : front ++ item :: back = front' ++ item' :: back')
    (before : ∀ other ∈ front', other.isMessage = true → other.direct = true)
    (message : item.isMessage = true) (general : item.direct = false)
    (quiet : ∀ other ∈ back', other.isMessage = false) : back = back' := by
  obtain ⟨middle, longer, rest⟩ | ⟨middle, longer, rest⟩ := List.append_eq_append_iff.mp same
  · cases middle with
    | nil => simpa using (List.cons.inj rest).2
    | cons other middle =>
        obtain ⟨rfl, -⟩ := List.cons.inj rest
        have path := before item (by simp [longer]) message
        simp [general] at path
  · cases middle with
    | nil => simpa using (List.cons.inj rest).2.symm
    | cons other middle =>
        obtain ⟨-, tail⟩ := List.cons.inj rest
        have silent := quiet item (by simp [tail])
        simp [message] at silent

/-- A message takes the general path: it must be the last message. -/
theorem exactFlags_of_split (d : Decoded) {front back : List Item} {item : Item}
    (split : d.items = front ++ item :: back) (message : item.isMessage = true)
    (general : item.direct = false)
    (before : ∀ other ∈ front, other.isMessage = true → other.direct = true) :
    ExactFlags (marksOps.delivered ⟨[], 0⟩ d).flags ↔ d.MarksEnd := by
  obtain ⟨flags, kept, unset⟩ := deliver_flags ⟨[], 0⟩ front
  rw [List.nil_append] at kept
  -- the general path closes the batch before it and marks its own
  obtain ⟨others, single, clear⟩ : ∃ others,
      marksOps.deliver ⟨[], 0⟩ (front ++ [item]) = ⟨others ++ [true], 0⟩ ∧ true ∉ others := by
    rw [SinkOps.deliver_append, deliver_one_general _ item message general, flush_pending,
      flush_flags, kept]
    refine ⟨_, rfl, ?_⟩
    have clean := unset before
    split <;> simp [clean]
  have items : d.items = (front ++ [item]) ++ back := by simp [split]
  rw [SinkOps.delivered, items, SinkOps.deliver_append, single]
  by_cases quiet : ∀ other ∈ back, other.isMessage = false
  · have silent : ∀ other ∈ back, SinkOps.message? other = none := fun other member => by
      simpa [Item.isMessage] using quiet other member
    have settled : marksOps.Settled ⟨others ++ [true], 0⟩ := marksOps_settled rfl
    rw [SinkOps.deliver_quiet settled silent, settled]
    exact iff_of_true ⟨others, rfl, clear⟩
      (.inr ⟨front, item, back, split, message, general, before, quiet⟩)
  · have more : ∃ other ∈ back, other.isMessage = true := by simpa using quiet
    refine iff_of_false ?_ ?_
    · obtain ⟨tail, appended, -⟩ := deliver_flags ⟨others ++ [true], 0⟩ back
      have longer := deliver_weight_message ⟨others ++ [true], 0⟩ more
      rw [← Marks.length_flush (SinkOps.tailFlag d.rest), flush_flags, appended] at longer
      rw [flush_flags, appended, List.append_assoc, List.append_assoc, List.singleton_append]
      apply not_exactFlags
      intro empty
      rw [List.append_assoc, empty] at longer
      simp at longer
    · rintro (⟨_, _, _, -, all, -⟩ | ⟨front', item', back', split', -, -, before', quiet'⟩)
      · have path := all item (by simp [split]) message
        simp [general] at path
      · have same := split_unique (split.symm.trans split') before' message general quiet'
        exact quiet (same ▸ quiet')

theorem exactFlags_iff (d : Decoded) :
    ExactFlags (marksOps.delivered ⟨[], 0⟩ d).flags ↔ d.MarksEnd := by
  obtain direct | ⟨front, item, back, split, message, general, before⟩ := direct_or_split d.items
  · exact exactFlags_of_direct d direct
  · exact exactFlags_of_split d split message general before

/-! ## The batch drains -/

section Drains

variable [AcceptDigest] {w : WsClient}

/-- The marks of a batch drain over an ingress chunk are exact for the frames `MarksEnd` names,
and for no others. -/
theorem drainDataEventBatchesFromIngress_exact_iff
    (reached : clientMachine.Reach Machine.always w) (isOpen : w.state = .isOpen) (bytes : Bytes) :
    w.Ready ∧ ∀ mode c r, Stands w.config w.clientKey w mode c r →
      (errorOf (w.drainDataEventBatchesFromIngress bytes).2.2 = none →
        (w.drainDataEventBatchesFromIngress bytes).2.1.calls ≠ [] →
        (ExactEnd (w.drainDataEventBatchesFromIngress bytes).2.1.calls ↔
          (decode w.config w.clientKey fastFault mode c (r ++ bytes)).MarksEnd)) ∧
      ∀ baseMeta clock,
        errorOf (w.drainDataEventBatchesFromIngressMarked bytes baseMeta clock).2.2 = none →
        (w.drainDataEventBatchesFromIngressMarked bytes baseMeta clock).2.1.calls ≠ [] →
        (ExactEnd (w.drainDataEventBatchesFromIngressMarked bytes baseMeta clock).2.1.calls ↔
          (decode w.config w.clientKey fastFault mode c (r ++ bytes)).MarksEnd) := by
  have live : ¬ w.state.Ending := by
    simp [isOpen, ConnState.Ending, ConnState.rank]
  refine ⟨WsClient.reached_ready reached live, fun mode c r stands => ⟨fun _ _ => ?_, ?_⟩⟩
  · have drained : Drained _ _ _ _ _ _ (w.drainDataEventBatchesFromIngress bytes) :=
      drainFromIngress_spec dataEventBatchOps_lawful stands
        ((dataEventBatchOps_settled_iff _).mpr rfl) bytes
    have marks := dataEventBatchOps_marks.delivered {}
      (decode w.config w.clientKey fastFault mode c (r ++ bytes))
    rw [← drained.sink] at marks
    rw [exactEnd_iff, ← exactFlags_iff]
    exact iff_of_eq (congrArg (fun m => ExactFlags m.flags) marks)
  · intro baseMeta clock _ _
    have drained : Drained _ _ _ _ _ _ (w.drainDataEventBatchesFromIngressMarked bytes baseMeta clock) :=
      drainFromIngress_spec (markedDataEventBatchOps_lawful baseMeta) stands
        ((markedDataEventBatchOps_settled_iff baseMeta _).mpr rfl) bytes
    have marks := (markedDataEventBatchOps_marks baseMeta).delivered
      ⟨[], EventBatch.empty, WsClient.markedStart clock baseMeta.messageSequence⟩
      (decode w.config w.clientKey fastFault mode c (r ++ bytes))
    rw [← drained.sink] at marks
    rw [exactEnd_iff, ← exactFlags_iff]
    exact iff_of_eq (congrArg (fun m => ExactFlags m.flags) marks)

end Drains

attribute [local instance] Sample.digest

/-- One message in the chunk: its batch bears the mark. -/
theorem drainDataEventBatchesFromIngress_exact_one :
    Sample.opened.Ready ∧ ∀ mode c r,
      Stands Sample.opened.config Sample.opened.clientKey Sample.opened mode c r →
      (ExactEnd (Sample.opened.drainDataEventBatchesFromIngress [0x81, 0x01, 0x41]).2.1.calls ↔
        (decode Sample.opened.config Sample.opened.clientKey fastFault mode c
          (r ++ [0x81, 0x01, 0x41])).MarksEnd) := by
  have reached := Sample.opened_reached.mono fun _ _ _ => trivial
  obtain ⟨ready, exact⟩ := drainDataEventBatchesFromIngress_exact_iff reached
    (by decide +kernel) [0x81, 0x01, 0x41]
  exact ⟨ready, fun mode c r stands =>
    (exact mode c r stands).1 (by decide +kernel) (by decide +kernel)⟩

/-- Two text messages in one chunk after the upgrade: the first takes the general path, and both
batches bear the mark. -/
theorem drainDataEventBatchesFromIngress_two_marks :
    clientMachine.Reach Machine.always Sample.opened ∧ Sample.opened.state = .isOpen ∧
      errorOf (Sample.opened.drainDataEventBatchesFromIngress
        [0x81, 0x01, 0x41, 0x81, 0x01, 0x42]).2.2 = none ∧
      (Sample.opened.drainDataEventBatchesFromIngress
        [0x81, 0x01, 0x41, 0x81, 0x01, 0x42]).2.1.calls.map EventBatch.isChunkEnd = [true, true] ∧
      ¬ ExactEnd (Sample.opened.drainDataEventBatchesFromIngress
        [0x81, 0x01, 0x41, 0x81, 0x01, 0x42]).2.1.calls := by
  have marks : (Sample.opened.drainDataEventBatchesFromIngress
      [0x81, 0x01, 0x41, 0x81, 0x01, 0x42]).2.1.calls.map EventBatch.isChunkEnd = [true, true] := by
    decide +kernel
  refine ⟨Sample.opened_reached.mono fun _ _ _ => trivial, by decide +kernel, by decide +kernel,
    marks, ?_⟩
  rw [exactEnd_iff, marks]
  have twice : ¬ ExactFlags ([] ++ true :: [true]) := not_exactFlags (by simp)
  exact twice

end Talaris.Ws
