import Mathlib.Data.List.Basic

/-!
# Streams of self-delimiting blocks

A stream is the codes of blocks, one behind the other.  Where each code tells its own end, a
reader who has got the front of the stream has read the first blocks, and once it has got the
whole stream it has read them all.
-/

namespace Talaris.Basis

variable {α β : Type} (next : List α → Option (β × Nat))

/-- The blocks at the front of a stream; `next` finds the first of them and its size. -/
def readBlocks (stream : List α) : List β :=
  match next stream with
  | none => []
  | some (block, size) =>
      if 0 < size ∧ size ≤ stream.length then block :: readBlocks (stream.drop size) else []
termination_by stream.length
decreasing_by simp only [List.length_drop]; omega

/-- The code is read as the block, whatever follows, and a part of it is not read at all. -/
structure Delimits (code : List α) (block : β) : Prop where
  nonempty : code ≠ []
  whole : ∀ rest, next (code ++ rest) = some (block, code.length)
  part : ∀ front, front <+: code → front.length < code.length → next front = none

variable {next}

theorem readBlocks_none {stream : List α} (none : next stream = none) :
    readBlocks next stream = [] := by
  rw [readBlocks, none]

theorem Delimits.read {code : List α} {block : β} (delimits : Delimits next code block)
    (rest : List α) : readBlocks next (code ++ rest) = block :: readBlocks next rest := by
  have size : 0 < code.length := List.length_pos_iff.mpr delimits.nonempty
  rw [readBlocks, delimits.whole]
  simp [size]

variable {codes : List (List α × β)}

/-- The whole stream gives all blocks. -/
theorem readBlocks_codes (delimited : ∀ entry ∈ codes, Delimits next entry.1 entry.2)
    (empty : next [] = none) :
    readBlocks next (codes.flatMap Prod.fst) = codes.map Prod.snd := by
  induction codes with
  | nil => exact readBlocks_none empty
  | cons entry codes ih =>
      obtain ⟨first, later⟩ := List.forall_mem_cons.mp delimited
      rw [List.flatMap_cons, first.read, ih later, List.map_cons]

/-- The front of the stream gives the first blocks. -/
theorem readBlocks_front (delimited : ∀ entry ∈ codes, Delimits next entry.1 entry.2)
    (empty : next [] = none) {front : List α} (within : front <+: codes.flatMap Prod.fst) :
    readBlocks next front <+: codes.map Prod.snd := by
  induction codes generalizing front with
  | nil =>
      rw [List.flatMap_nil, List.prefix_nil] at within
      rw [within, readBlocks_none empty]
      exact List.nil_prefix
  | cons entry codes ih =>
      obtain ⟨first, later⟩ := List.forall_mem_cons.mp delimited
      rw [List.flatMap_cons] at within
      rw [List.map_cons]
      rcases Nat.lt_or_ge front.length entry.1.length with short | long
      · have cut : front <+: entry.1 :=
          List.prefix_of_prefix_length_le within (List.prefix_append _ _) (Nat.le_of_lt short)
        rw [readBlocks_none (first.part front cut short)]
        exact List.nil_prefix
      · obtain ⟨rest, rfl⟩ := List.prefix_of_prefix_length_le (List.prefix_append _ _) within long
        rw [List.prefix_append_right_inj] at within
        rw [first.read]
        exact List.cons_prefix_cons.mpr ⟨rfl, ih later within⟩

end Talaris.Basis
