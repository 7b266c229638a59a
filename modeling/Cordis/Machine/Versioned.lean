import Mathlib.Algebra.Order.Ring.Int

/-! # Versioned values

A stored value carries a version, and what is shown to others is a value with its version. If a value is
replaced only under a larger version, and only stored values are shown, then a version stands for one value.
-/

namespace Cordis

variable {Value : Type*}

/-- A value with its version. -/
abbrev Stamped (Value : Type*) := Value × ℤ

/-- The stored value is kept, or replaced under a version that is not smaller, and larger for another value. -/
def Advances (before after : Option (Stamped Value)) : Prop :=
  ∀ old ∈ before, ∃ new ∈ after, old.2 ≤ new.2 ∧ (new.1 ≠ old.1 → old.2 < new.2)

theorem Advances.refl (stored : Option (Stamped Value)) : Advances stored stored :=
  fun old found => ⟨old, found, le_rfl, fun changed => (changed rfl).elim⟩

theorem Advances.trans {first second third : Option (Stamped Value)} (earlier : Advances first second)
    (later : Advances second third) : Advances first third := by
  intro old found
  obtain ⟨middle, between, rises, moved⟩ := earlier old found
  obtain ⟨new, stored, risesToo, movedToo⟩ := later middle between
  refine ⟨new, stored, rises.trans risesToo, fun changed => ?_⟩
  by_cases same : middle.1 = old.1
  · exact rises.trans_lt (movedToo fun kept => changed (kept.trans same))
  · exact (moved same).trans_le risesToo

/-- What has been shown is not above the stored version, and a version has shown one value. -/
structure Versioned (stored : Option (Stamped Value)) (shown : List (Stamped Value)) : Prop where
  bounded : ∀ old ∈ shown, ∃ current ∈ stored, old.2 ≤ current.2 ∧ (old.2 = current.2 → old.1 = current.1)
  unique : ∀ one ∈ shown, ∀ other ∈ shown, one.2 = other.2 → one.1 = other.1

namespace Versioned

variable {stored : Option (Stamped Value)} {shown : List (Stamped Value)}

theorem empty (stored : Option (Stamped Value)) : Versioned stored [] := ⟨nofun, nofun⟩

/-- What is remembered of the stored value may be shown. -/
theorem shows (versioned : Versioned stored shown) {remembered : Option (Stamped Value)}
    (isStored : ∀ current ∈ remembered, stored = some current) : Versioned stored (remembered.toList ++ shown) := by
  cases remembered with
  | none => exact versioned
  | some current =>
    have same : ∀ old ∈ shown, old.2 = current.2 → old.1 = current.1 := by
      intro old member equal
      obtain ⟨_, found, _, agrees⟩ := versioned.bounded old member
      cases (isStored current rfl).symm.trans found
      exact agrees equal
    constructor
    · intro old member
      rcases List.mem_cons.mp member with rfl | earlier
      · exact ⟨old, isStored old rfl, le_rfl, fun _ => rfl⟩
      · exact versioned.bounded old earlier
    · intro one isOne other isOther equal
      rcases List.mem_cons.mp isOne with rfl | oneEarlier <;> rcases List.mem_cons.mp isOther with rfl | otherEarlier
      · rfl
      · exact (same other otherEarlier equal.symm).symm
      · exact same one oneEarlier equal
      · exact versioned.unique one oneEarlier other otherEarlier equal

/-- The stored value may be replaced under a larger version, or under its own by itself. -/
theorem replace (versioned : Versioned stored shown) {new : Option (Stamped Value)} (advances : Advances stored new) :
    Versioned new shown := by
  refine ⟨fun old member => ?_, versioned.unique⟩
  obtain ⟨current, found, below, agrees⟩ := versioned.bounded old member
  obtain ⟨next, isNext, rises, moved⟩ := advances current found
  refine ⟨next, isNext, below.trans rises, fun equal => ?_⟩
  have kept : next.1 = current.1 := by
    by_contra changed
    exact absurd (moved changed) (not_lt.mpr (equal ▸ below))
  exact (agrees (le_antisymm below (rises.trans equal.symm.le))).trans kept.symm

end Versioned

end Cordis
