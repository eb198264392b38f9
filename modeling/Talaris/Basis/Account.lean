import Mathlib.Data.List.Infix

/-!
# Accounts of a reader

A reader takes its input in pieces of any size and gives out what it has understood so far.
`yields` says what a whole input gives from a place of the reader.  The reader keeps accounts
when, whatever input follows, what it has given and what it will give from where it stands is
what the whole input gives from where it started.
-/

namespace Talaris.Basis

universe u v w

variable {Place : Type u} {β : Type v} {ε : Type w} {yields : Place → List β → List ε}

/-- From `start` the reader has taken in `taken` and given `given`; it stands at `place` with
`pending` still to be read. -/
def Accounts (yields : Place → List β → List ε) (start : Place) (taken : List β) (given : List ε)
    (place : Place) (pending : List β) : Prop :=
  ∀ more, yields start (taken ++ more) = given ++ yields place (pending ++ more)

namespace Accounts

variable {start place place' : Place} {taken pending pending' : List β} {given more : List ε}

theorem refl (place : Place) (pending : List β) :
    Accounts yields place pending [] place pending := fun _ => rfl

/-- More input is put behind what is still to be read. -/
theorem feed (accounts : Accounts yields start taken given place pending) (chunk : List β) :
    Accounts yields start (taken ++ chunk) given place (pending ++ chunk) := by
  intro rest
  rw [List.append_assoc, List.append_assoc]
  exact accounts (chunk ++ rest)

/-- The reader reads on. -/
theorem trans (accounts : Accounts yields start taken given place pending)
    (reads : Accounts yields place pending more place' pending') :
    Accounts yields start taken (given ++ more) place' pending' := by
  intro rest
  rw [accounts rest, reads rest, List.append_assoc]

/-- The place may be replaced by one that yields the same. -/
theorem move (accounts : Accounts yields start taken given place pending)
    (same : ∀ rest, yields place' rest = yields place rest) :
    Accounts yields start taken given place' pending := by
  intro rest
  rw [accounts rest, same]

theorem given_eq (accounts : Accounts yields start taken given place pending) :
    yields start taken = given ++ yields place pending := by
  have now := accounts []
  rwa [List.append_nil, List.append_nil] at now

/-- What was given comes first in what the input gives. -/
theorem given_first (accounts : Accounts yields start taken given place pending) :
    given <+: yields start taken := by
  rw [accounts.given_eq]
  exact List.prefix_append _ _

/-- It is all of it where nothing is left to give. -/
theorem given_all (accounts : Accounts yields start taken given place pending)
    (nothing : yields place pending = []) : given = yields start taken := by
  rw [accounts.given_eq, nothing, List.append_nil]

/-- Input that is never read adds nothing before it. -/
theorem prefix_append (accounts : Accounts yields start taken given place pending)
    (chunk : List β) : given <+: yields start (taken ++ chunk) :=
  (accounts.feed chunk).given_first

end Accounts

end Talaris.Basis
