import Talaris.Basis.Transition

/-!
# Calls that are runs

A coarse machine may take in one step what a finer one takes in a whole run.  `Performs`
collects the runs of the finer machine with what they put out, and `Implements` says that
every step of the coarse machine is such a run; then every run of the coarse machine is one
of the finer machine.
-/

namespace Talaris.Basis

universe u v w x y

namespace Machine

variable {State : Type u} {Label : Type v} {ε : Type w}
variable {machine : Machine State Label (List ε)} {uses : Label → Prop}

/-- A run whose labels all meet `uses`, with what its steps put out in a row. -/
inductive Performs (machine : Machine State Label (List ε)) (uses : Label → Prop) :
    State → State → List ε → Prop where
  | nil (state : State) : Performs machine uses state state []
  | cons {state last : State} {out : List ε} (label : Label) :
      uses label → Performs machine uses (machine.step state label).1 last out →
      Performs machine uses state last ((machine.step state label).2 ++ out)

namespace Performs

variable {first middle last : State} {out more : List ε}

theorem single (label : Label) (used : uses label) (state : State) :
    machine.Performs uses state (machine.step state label).1 (machine.step state label).2 := by
  have one : machine.Performs uses state _ ((machine.step state label).2 ++ []) :=
    .cons label used (.nil _)
  rwa [List.append_nil] at one

theorem trans (before : machine.Performs uses first middle out)
    (after : machine.Performs uses middle last more) :
    machine.Performs uses first last (out ++ more) := by
  induction before with
  | nil => exact after
  | cons label used _ ih =>
      rw [List.append_assoc]
      exact .cons label used (ih after)

theorem mono {uses' : Label → Prop} (wider : ∀ label, uses label → uses' label)
    (performed : machine.Performs uses first last out) :
    machine.Performs uses' first last out := by
  induction performed with
  | nil => exact .nil _
  | cons label used _ ih => exact .cons label (wider label used) ih

/-- It is a run. -/
theorem labels (performed : machine.Performs uses first last out) :
    ∃ labels, (∀ label ∈ labels, uses label) ∧ (machine.run first labels).1 = last ∧
      (machine.run first labels).2.flatten = out := by
  induction performed with
  | nil => exact ⟨[], by simp, rfl, rfl⟩
  | cons label used _ ih =>
      obtain ⟨labels, all, ends, outputs⟩ := ih
      refine ⟨label :: labels, ?_, ends, ?_⟩
      · intro other member
        rcases List.mem_cons.mp member with rfl | later
        · exact used
        · exact all other later
      · rw [run_cons, List.flatten_cons, outputs]

theorem reach (performed : machine.Performs uses first last out)
    (reached : machine.Reach always first) : machine.Reach always last := by
  induction performed with
  | nil => exact reached
  | cons label _ _ ih => exact ih (.next label reached trivial)

/-- What every step that is used keeps is kept. -/
theorem keeps {inv : State → Prop}
    (step : ∀ state label, uses label → inv state → inv (machine.step state label).1)
    (performed : machine.Performs uses first last out) (start : inv first) : inv last := by
  induction performed with
  | nil => exact start
  | cons label used _ ih => exact ih (step _ label used start)

end Performs

/-- Every admitted step of the coarse machine is a run of the finer one with the same output. -/
structure Implements {Spec : Type x} {Call : Type y} (fine : Machine State Label (List ε))
    (coarse : Machine Spec Call (List ε)) (admits : Spec → Call → Prop)
    (uses : Call → Label → Prop) (related : Spec → State → Prop) : Prop where
  step : ∀ {spec state} call, related spec state → admits spec call →
    ∃ state', fine.Performs (uses call) state state' (coarse.step spec call).2 ∧
      related (coarse.step spec call).1 state'

/-- So is every admitted run. -/
theorem Implements.run {Spec : Type x} {Call : Type y} {coarse : Machine Spec Call (List ε)}
    {admits : Spec → Call → Prop} {uses : Call → Label → Prop} {related : Spec → State → Prop}
    (implements : machine.Implements coarse admits uses related) {spec : Spec} {state : State}
    (start : related spec state) (calls : List Call) (admitted : coarse.Admitted admits spec calls) :
    ∃ state', machine.Performs (fun label => ∃ call ∈ calls, uses call label) state state'
        (coarse.run spec calls).2.flatten ∧
      related (coarse.run spec calls).1 state' := by
  induction calls generalizing spec state with
  | nil => exact ⟨state, .nil state, start⟩
  | cons call calls ih =>
      obtain ⟨head, tail⟩ := admitted
      obtain ⟨between, first, kept⟩ := implements.step call start head
      obtain ⟨last, rest, ends⟩ := ih kept tail
      refine ⟨last, ?_, ends⟩
      rw [run_cons, List.flatten_cons]
      apply Performs.trans
      · exact first.mono fun label used => ⟨call, List.mem_cons_self, used⟩
      · apply rest.mono
        rintro label ⟨other, member, used⟩
        exact ⟨other, List.mem_cons_of_mem _ member, used⟩

end Machine

end Talaris.Basis
