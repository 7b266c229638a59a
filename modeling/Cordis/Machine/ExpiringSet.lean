import Mathlib.Order.Lattice
import Mathlib.Data.List.Induction

/-! # Expiring sets and their generational representation

An expiring set remembers for each key when its last accepted addition runs out. An addition is
accepted when the key is not held, and a held key can also be removed. Under a clock that never
goes back, being held is a statement about the history alone: some earlier accepted addition has
not run out, and nothing removed the key since.

A generational representation spreads the entries over several tables. It agrees with a set when
both hold the same keys at every time from now on, so a table may be discarded as soon as all its
entries have run out, and stale entries of one key may survive in several tables.
-/

namespace Cordis

open List Function

variable {Key Time Table : Type*}

/-- For each key, when its last accepted addition runs out. -/
abbrev ExpiringSet (Key Time : Type*) := Key → Option Time

namespace ExpiringSet

inductive Call (Key Time : Type*) where
  | add (key : Key) (expires : Time)
  | remove (key : Key)
  | idle

def empty : ExpiringSet Key Time := fun _ => none

variable [LinearOrder Time]

def Holds (set : ExpiringSet Key Time) (now : Time) (key : Key) : Prop :=
  ∃ expires, set key = some expires ∧ now < expires

theorem not_holds_empty (now : Time) (key : Key) : ¬ (empty : ExpiringSet Key Time).Holds now key := by
  rintro ⟨_, found, _⟩
  cases found

variable {set : ExpiringSet Key Time} {now : Time} {key : Key}

/-- A key held later was held before, as long as the set has not changed. -/
theorem Holds.earlier {later : Time} (order : now ≤ later)
    (holds : set.Holds later key) : set.Holds now key := by
  obtain ⟨expires, found, alive⟩ := holds
  exact ⟨expires, found, order.trans_lt alive⟩

open Classical in
/-- What one call at a given time does to the set. -/
noncomputable def apply [DecidableEq Key] (set : ExpiringSet Key Time) :
    Time × Call Key Time → ExpiringSet Key Time
  | (now, .add key expires) =>
      if set.Holds now key then set else Function.update set key (some expires)
  | (_, .remove key) => Function.update set key none
  | (_, .idle) => set

variable [DecidableEq Key]

theorem holds_apply_other (set : ExpiringSet Key Time) (now later : Time)
    {call : Call Key Time} (added : ∀ expires, call ≠ .add key expires)
    (removed : call ≠ .remove key) : (set.apply (now, call)).Holds later key ↔ set.Holds later key := by
  cases call with
  | idle => rfl
  | remove other =>
    have distinct : key ≠ other := fun same => removed (same ▸ rfl)
    simp only [Holds, apply, update_of_ne distinct]
  | add other expires =>
    have distinct : key ≠ other := fun same => added expires (same ▸ rfl)
    by_cases held : set.Holds now other
    · rw [apply, if_pos held]
    · rw [apply, if_neg held]
      simp only [Holds, update_of_ne distinct]

theorem not_holds_apply_remove (set : ExpiringSet Key Time) (now later : Time) (key : Key) :
    ¬ (set.apply (now, .remove key)).Holds later key := by
  rintro ⟨_, found, _⟩
  cases (update_self ..).symm.trans found

theorem holds_apply_add_of_holds (holds : set.Holds now key) (expires later : Time) :
    (set.apply (now, .add key expires)).Holds later key ↔ set.Holds later key := by
  have kept : set.apply (now, .add key expires) = set := if_pos holds
  rw [kept]

theorem holds_apply_add_of_not_holds (free : ¬ set.Holds now key) (expires later : Time) :
    (set.apply (now, .add key expires)).Holds later key ↔ later < expires := by
  have added : set.apply (now, .add key expires) = update set key (some expires) := if_neg free
  simp [added, Holds]

variable (history : List (Time × Call Key Time))

/-- The set after a history of timed calls. -/
noncomputable def after : ExpiringSet Key Time :=
  history.foldl apply empty

theorem after_append (last : Time × Call Key Time) : after (history ++ [last]) = (after history).apply last := by
  simp [after]

/-- Some accepted addition of the key in the history runs out after `now` and was not removed. -/
def Recorded (now : Time) (key : Key) : Prop :=
  ∃ earlier time expires later, history = earlier ++ (time, .add key expires) :: later ∧
    ¬ (after earlier).Holds time key ∧ now < expires ∧
    ∀ timed ∈ later, timed.2 ≠ Call.remove key

theorem Recorded.append {history : List (Time × Call Key Time)}
    (recorded : Recorded history now key) {last : Time × Call Key Time}
    (kept : last.2 ≠ .remove key) : Recorded (history ++ [last]) now key := by
  obtain ⟨earlier, time, expires, later, rfl, free, alive, unremoved⟩ := recorded
  refine ⟨earlier, time, expires, later ++ [last], by simp, free, alive, ?_⟩
  intro timed member
  rcases mem_append.mp member with old | new
  · exact unremoved timed old
  · exact mem_singleton.mp new ▸ kept

/-- An addition recorded in an extended history is the last call itself or was recorded before. -/
theorem recorded_append {history : List (Time × Call Key Time)}
    {last : Time × Call Key Time} (recorded : Recorded (history ++ [last]) now key) :
    (∃ expires, last.2 = .add key expires ∧ ¬ (after history).Holds last.1 key ∧ now < expires) ∨
      Recorded history now key ∧ last.2 ≠ .remove key := by
  obtain ⟨earlier, time, expires, later, split, free, alive, unremoved⟩ := recorded
  rcases eq_nil_or_concat later with rfl | ⟨front, final, rfl⟩
  · obtain ⟨rfl, same⟩ := append_inj' split rfl
    obtain rfl := singleton_inj.mp same
    exact .inl ⟨expires, rfl, free, alive⟩
  · rw [concat_eq_append, ← cons_append, ← append_assoc] at split
    rw [concat_eq_append] at unremoved
    obtain ⟨rfl, same⟩ := append_inj' split rfl
    obtain rfl := singleton_inj.mp same
    refine .inr ⟨⟨earlier, time, expires, front, rfl, free, alive, ?_⟩, ?_⟩
    · exact fun timed member => unremoved timed (mem_append_left _ member)
    · exact unremoved _ (mem_append_right _ (mem_singleton_self _))

/-- Under a clock that never goes back, a key is held exactly when the history records it. -/
theorem holds_after_iff (now : Time) (key : Key) (clock : ∀ timed ∈ history, timed.1 ≤ now) :
    (after history).Holds now key ↔ Recorded history now key := by
  induction history using reverseRecOn with
  | nil =>
    constructor
    · exact fun holds => (not_holds_empty now key holds).elim
    · rintro ⟨earlier, _, _, later, split, _⟩
      simp at split
  | append_singleton history last ih =>
    have ih := ih fun timed member => clock timed (mem_append_left _ member)
    have order : last.1 ≤ now := clock last (mem_append_right _ (mem_singleton_self _))
    obtain ⟨time, call⟩ := last
    rw [after_append]
    by_cases added : ∃ expires, call = .add key expires
    · obtain ⟨expires, rfl⟩ := added
      by_cases held : (after history).Holds time key
      · rw [holds_apply_add_of_holds held, ih]
        constructor
        · exact fun recorded => recorded.append (by simp)
        · intro recorded
          rcases recorded_append recorded with ⟨_, _, free, _⟩ | ⟨old, _⟩
          · exact (free held).elim
          · exact old
      · rw [holds_apply_add_of_not_holds held]
        constructor
        · exact fun alive => ⟨history, time, expires, [], rfl, held, alive, by simp⟩
        · intro recorded
          rcases recorded_append recorded with ⟨_, same, _, alive⟩ | ⟨old, _⟩
          · cases same
            exact alive
          · -- an unexpired older addition would already have held the key at the last call
            exact (held (Holds.earlier order (ih.mpr old))).elim
    · have added : ∀ expires, call ≠ .add key expires := fun expires same => added ⟨expires, same⟩
      by_cases removed : call = .remove key
      · subst removed
        constructor
        · exact fun holds => (not_holds_apply_remove _ _ _ _ holds).elim
        · intro recorded
          rcases recorded_append recorded with ⟨_, same, _⟩ | ⟨_, kept⟩
          · cases same
          · exact (kept rfl).elim
      · rw [holds_apply_other _ _ _ added removed, ih]
        constructor
        · exact fun recorded => recorded.append removed
        · intro recorded
          rcases recorded_append recorded with ⟨_, same, _⟩ | ⟨old, _⟩
          · exact (added _ same).elim
          · exact old

end ExpiringSet

/-! ## Generations -/

section Generations

variable [LinearOrder Time]

/-- Some table has an entry for the key that has not run out. -/
def Live (tables : Table → Key → Option Time) (now : Time) (key : Key) : Prop :=
  ∃ table expires, tables table key = some expires ∧ now < expires

/-- The tables and the set hold the same keys at every time from `now` on. -/
def Agree (tables : Key → Table → Key → Option Time) (set : ExpiringSet Key Time) (now : Time) : Prop :=
  ∀ time, now ≤ time → ∀ key, Live (tables key) time key ↔ set.Holds time key

variable {tables after : Key → Table → Key → Option Time} {set : ExpiringSet Key Time} {now later : Time}

theorem Agree.advance (agree : Agree tables set now) (order : now ≤ later) : Agree tables set later :=
  fun time bound key => agree time (order.trans bound) key

variable {key : Key}

theorem Live.congr {first second : Table → Key → Option Time}
    (same : ∀ table, second table key = first table key) : Live second now key ↔ Live first now key := by
  simp only [Live, same]

variable [DecidableEq Key]

/-- An accepted addition writes one entry of its key into one table. -/
theorem Agree.add (agree : Agree tables set now) {expires : Time} (home : Table)
    (free : ¬ Live (tables key) now key)
    (written : after key home key = some expires)
    (others : ∀ table, table ≠ home → after key table key = tables key table key)
    (frame : ∀ other, other ≠ key → ∀ table, after other table other = tables other table other) :
    Agree after (set.apply (now, .add key expires)) now := by
  have absent : ¬ set.Holds now key := fun holds => free ((agree now le_rfl key).mpr holds)
  intro time bound other
  by_cases same : other = key
  · subst same
    rw [ExpiringSet.holds_apply_add_of_not_holds absent]
    constructor
    · rintro ⟨table, found, entry, alive⟩
      by_cases atHome : table = home
      · subst atHome
        cases written.symm.trans entry
        exact alive
      · rw [others table atHome] at entry
        exact (free ⟨table, found, entry, bound.trans_lt alive⟩).elim
    · exact fun alive => ⟨home, expires, written, alive⟩
  · have kept : (set.apply (now, .add key expires)).Holds time other ↔ set.Holds time other :=
      set.holds_apply_other now time (fun _ equal => same (by cases equal; rfl)) (by simp)
    rw [kept, ← agree time bound other]
    exact Live.congr (frame other same)

/-- A rejected addition changes neither side. -/
theorem Agree.reject (agree : Agree tables set now) (held : Live (tables key) now key)
    (expires : Time) : Agree tables (set.apply (now, .add key expires)) now := by
  intro time bound other
  have holds := (agree now le_rfl key).mp held
  by_cases same : other = key
  · subst same
    rw [ExpiringSet.holds_apply_add_of_holds holds]
    exact agree time bound other
  · have kept : (set.apply (now, .add key expires)).Holds time other ↔ set.Holds time other :=
      set.holds_apply_other now time (fun _ equal => same (by cases equal; rfl)) (by simp)
    rw [kept]
    exact agree time bound other

/-- A removal deletes the key's entries from every table. -/
theorem Agree.remove (agree : Agree tables set now) (deleted : ∀ table, after key table key = none)
    (frame : ∀ other, other ≠ key → ∀ table, after other table other = tables other table other) :
    Agree after (set.apply (now, .remove key)) now := by
  intro time bound other
  by_cases same : other = key
  · subst same
    constructor
    · rintro ⟨table, expires, entry, _⟩
      rw [deleted table] at entry
      cases entry
    · exact fun holds => (ExpiringSet.not_holds_apply_remove _ _ _ _ holds).elim
  · have kept : (set.apply (now, .remove key)).Holds time other ↔ set.Holds time other :=
      set.holds_apply_other now time (by simp) (fun equal => same (by cases equal; rfl))
    rw [kept, ← agree time bound other]
    exact Live.congr (frame other same)

omit [DecidableEq Key] in
/-- Entries may disappear once they have run out. -/
theorem Agree.discard (agree : Agree tables set now)
    (kept : ∀ key table expires, after key table key = some expires → tables key table key = some expires)
    (lost : ∀ key table expires, tables key table key = some expires → now < expires →
      after key table key = some expires) : Agree after set now := by
  intro time bound key
  rw [← agree time bound key]
  constructor
  · rintro ⟨table, expires, entry, alive⟩
    exact ⟨table, expires, kept key table expires entry, alive⟩
  · rintro ⟨table, expires, entry, alive⟩
    exact ⟨table, expires, lost key table expires entry (bound.trans_lt alive), alive⟩

end Generations

end Cordis
