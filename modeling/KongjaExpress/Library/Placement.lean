import Mathlib.Tactic

/-! Items that are each in exactly one place, and what moving one of them keeps. -/

namespace KongjaExpress.Placement

variable {Place Item : Type} {At At' : Place → Item → Prop}

def Placed (At : Place → Item → Prop) : Prop := ∀ item, ∃! place, At place item

structure Moves (At At' : Place → Item → Prop) (item : Item) (source target : Place) :
    Prop where
  present : At source item
  after : ∀ place other,
    At' place other ↔ (place = target ∧ other = item) ∨
      (At place other ∧ ¬ (place = source ∧ other = item))

structure Drops (At At' : Place → Item → Prop) (item : Item) (source : Place) : Prop where
  present : At source item
  after : ∀ place other, At' place other ↔ At place other ∧ ¬ (place = source ∧ other = item)

theorem Placed.congr (placed : Placed At) (same : ∀ place item, At' place item ↔ At place item) :
    Placed At' := by
  intro item
  rcases placed item with ⟨place, present, only⟩
  exact ⟨place, (same place item).mpr present,
    fun other there => only other ((same other item).mp there)⟩

theorem Moves.placed {item : Item} {source target : Place} (moves : Moves At At' item source target)
    (placed : Placed At) : Placed At' := by
  intro other
  rcases placed other with ⟨place, present, only⟩
  by_cases moved : other = item
  · subst moved
    refine ⟨target, (moves.after target other).mpr (Or.inl ⟨rfl, rfl⟩), fun place' there => ?_⟩
    rcases (moves.after place' other).mp there with ⟨same, -⟩ | ⟨stays, elsewhere⟩
    · exact same
    · have left : place' = source := (only place' stays).trans (only source moves.present).symm
      exact absurd ⟨left, rfl⟩ elsewhere
  · refine ⟨place, (moves.after place other).mpr (Or.inr ⟨present, fun here => moved here.2⟩),
      fun place' there => ?_⟩
    rcases (moves.after place' other).mp there with ⟨-, same⟩ | ⟨stays, -⟩
    · exact absurd same moved
    · exact only place' stays

theorem Drops.not_placed {item : Item} {source : Place} (drops : Drops At At' item source)
    (placed : Placed At) : ¬ Placed At' := by
  intro placed'
  rcases placed' item with ⟨place, there, -⟩
  rcases (drops.after place item).mp there with ⟨present, elsewhere⟩
  exact elsewhere ⟨(placed item).unique present drops.present, rfl⟩

/-- No item is in two places; one may be in none. -/
def Apart (At : Place → Item → Prop) : Prop :=
  ∀ item place other, At place item → At other item → place = other

theorem Placed.apart (placed : Placed At) : Apart At :=
  fun item _ _ here there => (placed item).unique here there

theorem Apart.congr (apart : Apart At) (same : ∀ place item, At' place item ↔ At place item) :
    Apart At' := fun item place other here there =>
  apart item place other ((same place item).mp here) ((same other item).mp there)

theorem Moves.apart {item : Item} {source target : Place} (moves : Moves At At' item source target)
    (apart : Apart At) : Apart At' := by
  have moved (place : Place) (there : At' place item) : place = target := by
    rcases (moves.after place item).mp there with ⟨same, -⟩ | ⟨stays, elsewhere⟩
    · exact same
    · exact absurd ⟨apart item place source stays moves.present, rfl⟩ elsewhere
  intro other place place' here there
  by_cases same : other = item
  · subst same
    exact (moved place here).trans (moved place' there).symm
  · have stayed (place : Place) (there : At' place other) : At place other := by
      rcases (moves.after place other).mp there with ⟨-, same'⟩ | ⟨stays, -⟩
      · exact absurd same' same
      · exact stays
    exact apart other place place' (stayed place here) (stayed place' there)

theorem Drops.apart {item : Item} {source : Place} (drops : Drops At At' item source)
    (apart : Apart At) : Apart At' := fun other place place' here there =>
  apart other place place' ((drops.after place other).mp here).1 ((drops.after place' other).mp there).1

end KongjaExpress.Placement
