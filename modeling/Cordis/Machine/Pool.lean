import Mathlib.Data.Option.Basic

/-! # Pools of tasks

A pool holds the tasks in progress of a machine under identifiers of any type, or the objects of a
heap under their addresses. A step of a machine writes one member, drops one, or rewrites them all,
while the shared state moves under the rest. `All` is a predicate on every member; its rules are
the case splits an invariant over a pool needs: the member the step wrote, and the others.
-/

namespace Cordis

open Function Option

variable {Id Task : Type*}

abbrev Pool (Id Task : Type*) := Id → Option Task

namespace Pool

/-- No member. -/
def empty : Pool Id Task := fun _ => none

/-- Rewrite every member. -/
def map (pool : Pool Id Task) (f : Task → Task) : Pool Id Task := fun id => (pool id).map f

def set [DecidableEq Id] (pool : Pool Id Task) (id : Id) (task : Task) : Pool Id Task :=
  Function.update pool id (some task)

def drop [DecidableEq Id] (pool : Pool Id Task) (id : Id) : Pool Id Task :=
  Function.update pool id none

/-- Every member satisfies the predicate. -/
def All (pool : Pool Id Task) (holds : Id → Task → Prop) : Prop :=
  ∀ id task, pool id = some task → holds id task

theorem all_empty (holds : Id → Task → Prop) : (empty : Pool Id Task).All holds := by
  rintro _ _ ⟨⟩

variable {pool : Pool Id Task} {holds weaker : Id → Task → Prop}

theorem All.mono (all : pool.All holds)
    (imp : ∀ id task, pool id = some task → holds id task → weaker id task) : pool.All weaker :=
  fun id task member => imp id task member (all id task member)

theorem All.map (all : pool.All holds) {f : Task → Task}
    (kept : ∀ id task, holds id task → weaker id (f task)) : (pool.map f).All weaker := by
  intro id task member
  obtain ⟨before, present, rfl⟩ := map_eq_some_iff.mp member
  exact kept id before (all id before present)

/-- Some member satisfies the predicate. -/
def Any (pool : Pool Id Task) (holds : Task → Prop) : Prop :=
  ∃ id task, pool id = some task ∧ holds task

variable [DecidableEq Id]

variable {id other : Id} {task : Task} {picks : Task → Bool}

@[simp] theorem set_self (pool : Pool Id Task) (id : Id) (task : Task) : pool.set id task id = some task :=
  update_self ..

theorem set_of_ne (pool : Pool Id Task) (ne : other ≠ id) (task : Task) :
    pool.set id task other = pool other :=
  update_of_ne ne ..

theorem set_eq_self {pool : Pool Id Task} (present : pool id = some task) :
    pool.set id task = pool := by
  rw [set, ← present, update_eq_self]

@[simp] theorem drop_self (pool : Pool Id Task) (id : Id) : pool.drop id id = none :=
  update_self ..

theorem drop_of_ne (pool : Pool Id Task) (ne : other ≠ id) :
    pool.drop id other = pool other :=
  update_of_ne ne ..

theorem of_drop (present : pool.drop id other = some task) : pool other = some task := by
  by_cases same : other = id
  · subst same
    rw [drop_self] at present
    cases present
  · rwa [drop_of_ne pool same] at present

/-- A member after a write is the one written, or was there before. -/
theorem of_set {found : Task} (present : pool.set id task other = some found) :
    other = id ∧ found = task ∨ other ≠ id ∧ pool other = some found := by
  by_cases same : other = id
  · subst same
    rw [set_self] at present
    cases present
    exact .inl ⟨rfl, rfl⟩
  · exact .inr ⟨same, (set_of_ne pool same task).symm.trans present⟩

/-- A member that is known goes on to be known when one member is rewritten. -/
theorem exists_set {old : Task} {known : Task → Prop} (present : pool id = some old)
    (written : other = id → known old → known task) (found : ∃ member, pool other = some member ∧ known member) :
    ∃ member, pool.set id task other = some member ∧ known member := by
  obtain ⟨member, held, satisfied⟩ := found
  by_cases same : other = id
  · subst same
    cases present.symm.trans held
    exact ⟨task, set_self .., written rfl satisfied⟩
  · exact ⟨member, (set_of_ne pool same task).trans held, satisfied⟩

/-- Writing one member asks the predicate of it and of the others. -/
theorem All.set_of (written : holds id task)
    (others : ∀ other task, other ≠ id → pool other = some task → holds other task) :
    (pool.set id task).All holds := by
  intro other found member
  rcases of_set member with ⟨rfl, rfl⟩ | ⟨different, before⟩
  · exact written
  · exact others other found different before

theorem All.set (all : pool.All holds) (written : holds id task) :
    (pool.set id task).All holds :=
  .set_of written fun other task _ member => all other task member

theorem All.drop_of (others : ∀ other task, other ≠ id → pool other = some task → holds other task) :
    (pool.drop id).All holds := by
  intro other task member
  by_cases same : other = id
  · subst same
    rw [drop_self] at member
    cases member
  · exact others other task same (of_drop member)

theorem All.drop (all : pool.All holds) (id : Id) : (pool.drop id).All holds :=
  fun other task member => all other task (of_drop member)

section Any

variable {holds : Task → Prop} {old : Task}

theorem any_set_self (pool : Pool Id Task) (id : Id) (satisfied : holds task) : (pool.set id task).Any holds :=
  ⟨id, task, set_self .., satisfied⟩

theorem Any.set_of_none (any : pool.Any holds) (free : pool id = none) (task : Task) :
    (pool.set id task).Any holds := by
  obtain ⟨other, found, member, satisfied⟩ := any
  refine ⟨other, found, (set_of_ne pool ?_ task).trans member, satisfied⟩
  rintro rfl
  cases free.symm.trans member

variable (any : pool.Any holds) (current : pool id = some old)

include any current

theorem Any.drop_or : (pool.drop id).Any holds ∨ holds old := by
  obtain ⟨other, found, member, satisfied⟩ := any
  by_cases same : other = id
  · subst same
    cases current.symm.trans member
    exact .inr satisfied
  · exact .inl ⟨other, found, (drop_of_ne pool same).trans member, satisfied⟩

/-- Writing a member keeps a satisfied predicate, unless the member it replaces was the one that
satisfied it. -/
theorem Any.set_or (task : Task) : (pool.set id task).Any holds ∨ holds old := by
  refine (any.drop_or current).imp_left fun ⟨other, found, member, satisfied⟩ => ?_
  refine ⟨other, found, (set_of_ne pool ?_ task).trans (of_drop member), satisfied⟩
  rintro rfl
  rw [drop_self] at member
  cases member

theorem Any.move (kept : holds old → holds task) : (pool.set id task).Any holds :=
  (any.set_or current task).elim (fun others => others) fun satisfied => any_set_self _ _ (kept satisfied)

end Any

/-! ## The members of one kind -/

/-- The members that the test picks. -/
def filter (pool : Pool Id Task) (picks : Task → Bool) : Pool Id Task := fun id => (pool id).filter picks

omit [DecidableEq Id] in
theorem filter_eq_some :
    pool.filter picks id = some task ↔ pool id = some task ∧ picks task = true :=
  filter_eq_some_iff

theorem filter_set_of_pos (picked : picks task = true) (id : Id) :
    (pool.set id task).filter picks = (pool.filter picks).set id task := by
  funext other
  by_cases same : other = id
  · subst same
    simp [filter, filter_some, picked]
  · simp only [filter, set_of_ne _ same]

/-- A member that is not picked is written over one that is not. -/
theorem filter_set_of_neg (left : picks task = false)
    (before : ∀ old, pool id = some old → picks old = false) : (pool.set id task).filter picks = pool.filter picks := by
  funext other
  by_cases same : other = id
  · subst same
    have absent : (pool other).filter picks = none :=
      filter_eq_none_iff.mpr fun old found => by simp [before old found]
    simp [filter, filter_some, left, absent]
  · simp only [filter, set_of_ne _ same]

theorem filter_drop (pool : Pool Id Task) (picks : Task → Bool) (id : Id) :
    (pool.drop id).filter picks = (pool.filter picks).drop id := by
  funext other
  by_cases same : other = id
  · subst same
    simp [filter]
  · simp only [filter, drop_of_ne _ same]

end Pool

end Cordis
