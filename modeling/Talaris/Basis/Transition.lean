import Mathlib

/-!
# Runs of a deterministic machine under a step condition

A machine takes one labelled step at a time and reports what the step put out.
The labels carry everything the environment decides, so that a run is a list of
labels.  `Reach` collects the states that a machine can reach when every step
meets a condition on the state before it and its label; the unconditional case is
`Reach` at the trivial condition.
-/

namespace Talaris.Basis

universe u v w

/-- A machine whose environment is spelled out in its labels. -/
structure Machine (State : Type u) (Label : Type v) (Output : Type w) where
  initial : State → Prop
  step : State → Label → State × Output

namespace Machine

variable {State : Type u} {Label : Type v} {Output : Type w}
variable (machine : Machine State Label Output)

/-- States reached by steps that all meet `admits` in the state they start from. -/
inductive Reach (admits : State → Label → Prop) : State → Prop where
  | start {state : State} : machine.initial state → Reach admits state
  | next {state : State} (label : Label) :
      Reach admits state → admits state label → Reach admits (machine.step state label).1

/-- The step condition of an unrestricted run. -/
def always : State → Label → Prop := fun _ _ => True

variable {machine} {admits : State → Label → Prop}

/-- Invariant rule: what holds at the start and is kept by every admitted step
holds in every state reached. -/
theorem Reach.invariant {inv : State → Prop}
    (start : ∀ state, machine.initial state → inv state)
    (keeps : ∀ state label, inv state → admits state label →
      inv (machine.step state label).1)
    {state : State} (reached : machine.Reach admits state) : inv state := by
  induction reached with
  | start initial => exact start _ initial
  | next label _ admitted ih => exact keeps _ label ih admitted

/-- A run under a stronger condition is a run under a weaker one. -/
theorem Reach.mono {weaker : State → Label → Prop}
    (implied : ∀ state label, admits state label → weaker state label)
    {state : State} (reached : machine.Reach admits state) :
    machine.Reach weaker state := by
  induction reached with
  | start initial => exact .start initial
  | next label _ admitted ih => exact .next label ih (implied _ label admitted)

variable (machine)

/-- State and outputs after a list of labels. -/
def run (state : State) : List Label → State × List Output
  | [] => (state, [])
  | label :: labels =>
      let first := machine.step state label
      let rest := run first.1 labels
      (rest.1, first.2 :: rest.2)

@[simp] theorem run_nil (state : State) : machine.run state [] = (state, []) := rfl

@[simp] theorem run_cons (state : State) (label : Label) (labels : List Label) :
    machine.run state (label :: labels) =
      ((machine.run (machine.step state label).1 labels).1,
        (machine.step state label).2 ::
          (machine.run (machine.step state label).1 labels).2) := rfl

/-- A run can be cut at any point. -/
theorem run_append (state : State) (first second : List Label) :
    machine.run state (first ++ second) =
      ((machine.run (machine.run state first).1 second).1,
        (machine.run state first).2 ++
          (machine.run (machine.run state first).1 second).2) := by
  induction first generalizing state with
  | nil => rfl
  | cons label labels ih => simp [ih]

/-- Every step of a run meets `admits` in the state it starts from. -/
def Admitted (admits : State → Label → Prop) : State → List Label → Prop
  | _, [] => True
  | state, label :: labels =>
      admits state label ∧ Admitted admits (machine.step state label).1 labels

instance Admitted.decidable (admits : State → Label → Prop)
    [∀ state label, Decidable (admits state label)] :
    ∀ state labels, Decidable (machine.Admitted admits state labels)
  | _, [] => .isTrue trivial
  | state, label :: labels =>
      let _ := decidable admits (machine.step state label).1 labels
      inferInstanceAs (Decidable (admits state label ∧
        machine.Admitted admits (machine.step state label).1 labels))

variable {machine}

/-- A run that meets one condition in every step meets what follows from it. -/
theorem Admitted.imp {weaker : State → Label → Prop}
    (implies : ∀ state label, admits state label → weaker state label) {state : State}
    {labels : List Label} (admitted : machine.Admitted admits state labels) :
    machine.Admitted weaker state labels := by
  induction labels generalizing state with
  | nil => trivial
  | cons label labels ih => exact ⟨implies state label admitted.1, ih admitted.2⟩

/-- The last state of an admitted run from a reachable state is reachable. -/
theorem Reach.run {state : State} (reached : machine.Reach admits state)
    (labels : List Label) (admitted : machine.Admitted admits state labels) :
    machine.Reach admits (machine.run state labels).1 := by
  induction labels generalizing state with
  | nil => exact reached
  | cons label labels ih =>
      obtain ⟨head, tail⟩ := admitted
      exact ih (.next label reached head) tail

/-- Every run from a reachable state ends in one. -/
theorem Reach.run_always {state : State} (reached : machine.Reach always state)
    (labels : List Label) : machine.Reach always (machine.run state labels).1 := by
  induction labels generalizing state with
  | nil => exact reached
  | cons label labels ih => exact ih (.next label reached trivial)

/-! ## Refinement -/

/-- Admitted steps of related states end in related states and put out the same. -/
structure Refines {Spec : Type u} (concrete : Machine State Label Output)
    (abstract : Machine Spec Label Output) (admits : State → Label → Prop)
    (related : State → Spec → Prop) : Prop where
  step : ∀ {state spec} label, related state spec → admits state label →
    related (concrete.step state label).1 (abstract.step spec label).1 ∧
      (concrete.step state label).2 = (abstract.step spec label).2

/-- Admitted runs from related states end in related states and put out the same. -/
theorem Refines.run {Spec : Type u} {abstract : Machine Spec Label Output}
    {related : State → Spec → Prop} (refines : machine.Refines abstract admits related)
    {state : State} {spec : Spec} (start : related state spec) (labels : List Label)
    (admitted : machine.Admitted admits state labels) :
    related (machine.run state labels).1 (abstract.run spec labels).1 ∧
      (machine.run state labels).2 = (abstract.run spec labels).2 := by
  induction labels generalizing state spec with
  | nil => exact ⟨start, rfl⟩
  | cons label labels ih =>
      obtain ⟨head, tail⟩ := admitted
      obtain ⟨kept, same⟩ := refines.step label start head
      obtain ⟨ends, outputs⟩ := ih kept tail
      rw [run_cons, run_cons]
      exact ⟨ends, List.cons_eq_cons.mpr ⟨same, outputs⟩⟩

end Machine

end Talaris.Basis
