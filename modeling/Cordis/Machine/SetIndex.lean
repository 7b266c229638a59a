import Mathlib.Data.Finset.Basic

/-! # Indexes from keys to sets of members

A map whose values are sets, in the form programs keep them: a key is present exactly while its set
has members, because removing the last member removes the key. `Has` is the relation such a map
stands for; each operation is characterised by what it does to that relation, and `Tight` says
that no key holds an empty set.
-/

namespace Cordis

open Function

variable {Key Member : Type*}

abbrev SetIndex (Key Member : Type*) := Key → Option (Finset Member)

namespace SetIndex

def empty : SetIndex Key Member := fun _ => none

variable (index : SetIndex Key Member)

/-- The member stands in the set of the key. -/
def Has (key : Key) (member : Member) : Prop :=
  ∃ set, index key = some set ∧ member ∈ set

/-- No key holds an empty set. -/
def Tight : Prop :=
  ∀ key set, index key = some set → set.Nonempty

/-- The set of a key, empty when the key is absent. -/
def members (key : Key) : Finset Member := (index key).getD ∅

theorem has_iff_mem_members {index : SetIndex Key Member} {key : Key} {member : Member} :
    index.Has key member ↔ member ∈ index.members key := by
  unfold Has members
  cases index key <;> simp

instance [DecidableEq Member] (index : SetIndex Key Member) (key : Key) (member : Member) :
    Decidable (index.Has key member) :=
  decidable_of_iff _ has_iff_mem_members.symm

variable [DecidableEq Key] [DecidableEq Member]

variable (index : SetIndex Key Member) (key : Key)

def add (member : Member) : SetIndex Key Member :=
  Function.update index key (some (insert member (index.members key)))

/-- Drop the member, and the key with its last member. -/
def remove (member : Member) : SetIndex Key Member :=
  let rest := (index.members key).erase member
  Function.update index key (if rest = ∅ then none else some rest)

/-- Drop a key with all its members. -/
def dropKey : SetIndex Key Member :=
  Function.update index key none

/-- Add one member under every key of a set. -/
def addAll (keys : Finset Key) (member : Member) : SetIndex Key Member :=
  fun key => if key ∈ keys then index.add key member key else index key

/-- Drop one member under every key of a set. -/
def removeAll (keys : Finset Key) (member : Member) : SetIndex Key Member :=
  fun key => if key ∈ keys then index.remove key member key else index key

variable {index : SetIndex Key Member} {key other : Key} {member found : Member}

theorem members_add : (index.add key member).members other =
    if other = key then insert member (index.members key) else index.members other := by
  split_ifs with same
  · subst same
    rw [add, members, update_self, Option.getD_some]
  · rw [add, members, update_of_ne same, members]

theorem members_remove : (index.remove key member).members other =
    if other = key then (index.members key).erase member else index.members other := by
  split_ifs with same
  · subst same
    rw [remove, members, update_self]
    split_ifs with last
    · rw [Option.getD_none, last]
    · rw [Option.getD_some]
  · rw [remove, members, update_of_ne same, members]

theorem has_add : (index.add key member).Has other found ↔
    index.Has other found ∨ (other = key ∧ found = member) := by
  simp only [has_iff_mem_members, members_add]
  split_ifs with same
  · simp [same, or_comm]
  · simp [same]

theorem has_remove : (index.remove key member).Has other found ↔
    index.Has other found ∧ ¬ (other = key ∧ found = member) := by
  simp only [has_iff_mem_members, members_remove]
  split_ifs with same
  · simp [same, and_comm]
  · simp [same]

omit [DecidableEq Member] in
theorem has_dropKey : (index.dropKey key).Has other found ↔ index.Has other found ∧ other ≠ key := by
  by_cases same : other = key
  · simp [Has, dropKey, same]
  · simp [Has, dropKey, same]

theorem has_addAll {keys : Finset Key} : (index.addAll keys member).Has other found ↔
    index.Has other found ∨ (other ∈ keys ∧ found = member) := by
  by_cases listed : other ∈ keys
  · have added : (index.addAll keys member).Has other found ↔ (index.add other member).Has other found := by
      simp only [Has, addAll, listed, ↓reduceIte]
    simp [added, has_add, listed]
  · simp [Has, addAll, listed]

theorem has_removeAll {keys : Finset Key} : (index.removeAll keys member).Has other found ↔
    index.Has other found ∧ ¬ (other ∈ keys ∧ found = member) := by
  by_cases listed : other ∈ keys
  · have removed : (index.removeAll keys member).Has other found ↔
        (index.remove other member).Has other found := by
      simp only [Has, removeAll, listed, ↓reduceIte]
    simp [removed, has_remove, listed]
  · simp [Has, removeAll, listed]

/-! Every operation keeps the index tight. -/

namespace Tight

variable (tight : index.Tight)

include tight

omit [DecidableEq Member] in
theorem update {value : Option (Finset Member)}
    (nonempty : ∀ set, value = some set → set.Nonempty) : Tight (update index key value) := by
  intro other set held
  by_cases same : other = key
  · subst same
    rw [update_self] at held
    exact nonempty set held
  · rw [update_of_ne same] at held
    exact tight other set held

theorem add : (index.add key member).Tight :=
  tight.update fun _ held => by cases held; exact Finset.insert_nonempty ..

theorem remove : (index.remove key member).Tight :=
  tight.update fun set held => by
    split_ifs at held with last
    cases held
    exact Finset.nonempty_iff_ne_empty.mpr last

omit [DecidableEq Member] in
theorem dropKey : (index.dropKey key).Tight :=
  tight.update nofun

theorem addAll (keys : Finset Key) : (index.addAll keys member).Tight := by
  intro other set held
  simp only [SetIndex.addAll] at held
  split_ifs at held
  · exact tight.add _ set held
  · exact tight other set held

theorem removeAll (keys : Finset Key) : (index.removeAll keys member).Tight := by
  intro other set held
  simp only [SetIndex.removeAll] at held
  split_ifs at held
  · exact tight.remove _ set held
  · exact tight other set held

end Tight

end SetIndex

end Cordis
