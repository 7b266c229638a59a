import Cordis.Machine.LockedTable
import Mathlib.Data.List.Dedup

/-! # Tables of rows with a primary key

A table with row locks whose rows can be listed, and can be deleted. The primary key is a function of
the row. A cell without a row is a deletion; as an uncommitted version it holds the lock of the deleted
row. What a reader sees is the uncommitted versions of its own transaction and the committed rows
otherwise; a reader outside transactions sees the committed rows.

The keys that have ever been written are kept, so that a listing is complete; this is a field of the
table, and so is that every version of a row stands under its key.
-/

namespace Cordis

open LockedTable Function Option

/-- A row table with primary key `keyOf`. -/
structure RowTable (Tx : Type*) {Key Row : Type*} (keyOf : Row → Key) where
  cells : LockedTable Tx Key (Option Row)
  keys : List Key
  nodup : keys.Nodup
  listed : ∀ key, (cells.committed key).isSome ∨ (cells.pending key).isSome → key ∈ keys
  keyed : ∀ key row, cells.committed key = some (some row) ∨ (∃ tx, cells.pending key = some (tx, some row)) →
    keyOf row = key

namespace RowTable

variable {Tx Key Row : Type*} {keyOf : Row → Key}

/-- The committed rows of a list with distinct keys. -/
def ofRows [DecidableEq Key] (rows : List Row) : RowTable Tx keyOf where
  cells := ⟨fun key => (rows.find? fun row => keyOf row = key).map some, fun _ => none⟩
  keys := (rows.map keyOf).dedup
  nodup := List.nodup_dedup _
  listed key present := by
    simp only [Option.isSome_map, Option.isSome_none, Bool.false_eq_true, or_false, List.find?_isSome,
      decide_eq_true_eq] at present
    obtain ⟨row, member, rfl⟩ := present
    exact List.mem_dedup.mpr (List.mem_map_of_mem member)
  keyed key row version := by
    rcases version with found | ⟨tx, held⟩
    · simp only [Option.map_eq_some_iff, Option.some.injEq, exists_eq_right] at found
      simpa using List.find?_some found
    · cases held

/-- The row has an uncommitted version, which belongs to the transaction. -/
def Holds (table : RowTable Tx keyOf) (tx : Tx) (key : Key) (value : Option Row) : Prop :=
  table.cells.pending key = some (tx, value)

section Operations

variable [DecidableEq Tx]

/-- The row as the reader sees it now. -/
def find (table : RowTable Tx keyOf) : Option Tx → Key → Option Row
  | none, key => (table.cells.committed key).join
  | some tx, key => (table.cells.read tx key).join

def rows (table : RowTable Tx keyOf) (reader : Option Tx) : List Row := table.keys.filterMap (table.find reader)

variable [DecidableEq Key]

variable (table : RowTable Tx keyOf) (tx : Tx)

/-- Write a cell, once no other transaction has locked it. -/
def put (key : Key) (value : Option Row) (keyed : ∀ row ∈ value, keyOf row = key) : Option (RowTable Tx keyOf) :=
  if table.cells.Free tx key then some
    { cells := ⟨table.cells.committed, Function.update table.cells.pending key (some (tx, value))⟩
      keys := table.keys.insert key
      nodup := table.nodup.insert
      listed := by
        intro other present
        by_cases same : other = key
        · exact same ▸ List.mem_insert_self
        · simp only [Function.update_of_ne same] at present
          exact List.mem_insert_of_mem (table.listed other present)
      keyed := by
        intro other row version
        by_cases same : other = key
        · subst same
          rcases version with committed | ⟨owner, held⟩
          · exact table.keyed other row (.inl committed)
          · simp only [Function.update_self, Option.some.injEq, Prod.mk.injEq] at held
            exact keyed row held.2
        · simp only [Function.update_of_ne same] at version
          exact table.keyed other row version }
  else none

/-- Insert a row, or replace the one that has its key. -/
def insert (row : Row) : Option (RowTable Tx keyOf) :=
  table.put tx (keyOf row) (some row) (by simp)

def erase (key : Key) : Option (RowTable Tx keyOf) :=
  table.put tx key none (by simp)

variable {tx : Tx} {key : Key}

variable (table : RowTable Tx keyOf)

omit [DecidableEq Key] in
private theorem listed_release (present : (table.cells.release tx key).isSome) : key ∈ table.keys := by
  obtain ⟨version, released⟩ := isSome_iff_exists.mp present
  exact table.listed key (.inr (isSome_of_mem (release_eq_some.mp released).1))

omit [DecidableEq Key] in
private theorem keyed_release {row : Row}
    (held : ∃ owner, table.cells.release tx key = some (owner, some row)) : keyOf row = key := by
  obtain ⟨owner, released⟩ := held
  exact table.keyed key row (.inr ⟨owner, (release_eq_some.mp released).1⟩)

omit [DecidableEq Key] in
private theorem version_of_read {value : Option Row} (read : table.cells.read tx key = some value) :
    table.cells.committed key = some value ∨ ∃ owner, table.cells.pending key = some (owner, value) := by
  rcases table.cells.read_cases tx key with ⟨row, held, mine⟩ | ⟨_, theirs⟩
  · obtain rfl := some.inj (mine.symm.trans read)
    exact .inr ⟨tx, held⟩
  · exact .inl (theirs.symm.trans read)

def commit (tx : Tx) : RowTable Tx keyOf where
  cells := table.cells.commit tx
  keys := table.keys
  nodup := table.nodup
  listed key present := by
    rcases present with read | released
    · obtain ⟨value, read⟩ := Option.isSome_iff_exists.mp read
      rcases table.version_of_read read with committed | ⟨owner, held⟩
      · exact table.listed key (.inl (Option.isSome_of_mem committed))
      · exact table.listed key (.inr (Option.isSome_of_mem held))
    · exact table.listed_release released
  keyed key row version := by
    rcases version with read | held
    · exact table.keyed key row (table.version_of_read read)
    · exact table.keyed_release held

def rollback (tx : Tx) : RowTable Tx keyOf where
  cells := table.cells.rollback tx
  keys := table.keys
  nodup := table.nodup
  listed key present := by
    rcases present with committed | released
    · exact table.listed key (.inl committed)
    · exact table.listed_release released
  keyed key row version := by
    rcases version with committed | held
    · exact table.keyed key row (.inl committed)
    · exact table.keyed_release held

end Operations

/-- What a write changes: the version of the row that its transaction holds. -/
structure Writes [DecidableEq Key] (table next : RowTable Tx keyOf) (tx : Tx) (key : Key) (value : Option Row) : Prop where
  free : table.cells.Free tx key
  committed : next.cells.committed = table.cells.committed
  pending : next.cells.pending = Function.update table.cells.pending key (some (tx, value))

section Rules

variable [DecidableEq Tx] {table next : RowTable Tx keyOf} {tx other : Tx} {reader : Option Tx} {key : Key} {row : Row}

theorem version_of_find (found : table.find reader key = some row) :
    table.cells.committed key = some (some row) ∨ ∃ owner, table.cells.pending key = some (owner, some row) := by
  cases reader with
  | none => exact .inl (join_eq_some_iff.mp found)
  | some tx => exact table.version_of_read (join_eq_some_iff.mp found)

theorem key_of_find (found : table.find reader key = some row) : keyOf row = key :=
  table.keyed key row (version_of_find found)

theorem mem_rows : row ∈ table.rows reader ↔ table.find reader (keyOf row) = some row := by
  simp only [rows, List.mem_filterMap]
  constructor
  · rintro ⟨key, _, found⟩
    rwa [key_of_find found]
  · intro found
    refine ⟨_, table.listed _ ?_, found⟩
    rcases version_of_find found with committed | ⟨owner, held⟩
    · exact .inl (isSome_of_mem committed)
    · exact .inr (isSome_of_mem held)

/-- No two rows have one key. -/
theorem nodup_rows (table : RowTable Tx keyOf) (reader : Option Tx) : ((table.rows reader).map keyOf).Nodup := by
  rw [rows, List.map_filterMap]
  refine table.nodup.filterMap fun key another shared found also => ?_
  obtain ⟨row, here, same⟩ := map_eq_some_iff.mp found
  obtain ⟨rowToo, there, sameToo⟩ := map_eq_some_iff.mp also
  rw [← key_of_find here, ← key_of_find there, same, sameToo]

variable {value : Option Row}

theorem find_of_holds (held : table.Holds tx key value) : table.find (some tx) key = value := by
  simp [find, read_of_pending held]

/-- A transaction that holds no version of a row reads the committed one. -/
theorem find_of_not_holds (free : ∀ value, ¬ table.Holds tx key value) : table.find (some tx) key = table.find none key := by
  rcases table.cells.read_cases tx key with ⟨value, held, _⟩ | ⟨_, committed⟩
  · exact (free value held).elim
  · simp only [find, committed]

/-- A transaction reads the version it holds, or the committed row. -/
theorem find_cases (table : RowTable Tx keyOf) (tx : Tx) (key : Key) :
    (∃ value, table.Holds tx key value ∧ table.find (some tx) key = value) ∨
      (∀ value, ¬ table.Holds tx key value) ∧ table.find (some tx) key = table.find none key := by
  by_cases held : ∃ value, table.Holds tx key value
  · obtain ⟨value, held⟩ := held
    exact .inl ⟨value, held, find_of_holds held⟩
  · have free (value : Option Row) : ¬ table.Holds tx key value := fun holds => held ⟨value, holds⟩
    exact .inr ⟨free, find_of_not_holds free⟩

omit [DecidableEq Tx] in
theorem Holds.unique {another : Option Row} (held : table.Holds tx key value) (also : table.Holds other key another) :
    other = tx ∧ another = value := by
  have same := also.symm.trans held
  simpa using same

variable [DecidableEq Key]

theorem writes_of_put {keyed : ∀ row ∈ value, keyOf row = key}
    (written : table.put tx key value keyed = some next) : Writes table next tx key value := by
  unfold put at written
  split_ifs at written with free
  cases written
  exact ⟨free, rfl, rfl⟩

theorem writes_of_insert (written : table.insert tx row = some next) : Writes table next tx (keyOf row) (some row) :=
  writes_of_put written

theorem writes_of_erase (written : table.erase tx key = some next) : Writes table next tx key none :=
  writes_of_put written

namespace Writes

variable {value : Option Row} (writes : Writes table next tx key value)

include writes

omit [DecidableEq Tx] in
theorem holds : next.Holds tx key value := by
  simp [Holds, writes.pending]

omit [DecidableEq Tx] in
theorem holds_iff {owner : Tx} {at_ : Key} {version : Option Row} :
    next.Holds owner at_ version ↔
      (at_ = key ∧ owner = tx ∧ version = value) ∨ (at_ ≠ key ∧ table.Holds owner at_ version) := by
  simp only [Holds, writes.pending]
  by_cases same : at_ = key
  · subst same
    simp [eq_comm]
  · simp [same]

/-- A write changes what its transaction reads of the row, and nothing else. -/
theorem find_eq (reader : Option Tx) (at_ : Key) :
    next.find reader at_ = if reader = some tx ∧ at_ = key then value else table.find reader at_ := by
  cases reader with
  | none => simp [find, writes.committed]
  | some other =>
    have written : table.cells.write tx key value = some ⟨next.cells.committed, next.cells.pending⟩ := by
      rw [writes.committed, writes.pending]
      exact write_eq_some.mpr ⟨writes.free, rfl⟩
    have read := read_write written other at_
    simp only [find, some.injEq]
    split_ifs at read ⊢ with hit
    · exact congrArg join read
    · exact congrArg join read

/-- Nobody else sees a write. -/
theorem find_of_ne {reader : Option Tx} (other : reader ≠ some tx) (at_ : Key) :
    next.find reader at_ = table.find reader at_ := by
  rw [writes.find_eq reader at_, if_neg fun hit => other hit.1]

end Writes

omit [DecidableEq Key]

omit [DecidableEq Tx] in
theorem not_holds_ofRows [DecidableEq Key] (rows : List Row) :
    ¬ (ofRows rows : RowTable Tx keyOf).Holds tx key value := by
  simp [Holds, ofRows]

/-- Before any transaction every reader sees the rows. -/
theorem find_ofRows [DecidableEq Key] (rows : List Row) (reader : Option Tx) (key : Key) :
    (ofRows rows : RowTable Tx keyOf).find reader key = rows.find? fun row => keyOf row = key := by
  have committed : (ofRows rows : RowTable Tx keyOf).find none key = rows.find? fun row => keyOf row = key := by
    simp only [find, ofRows]
    cases rows.find? fun row => keyOf row = key <;> rfl
  cases reader with
  | none => exact committed
  | some tx => rw [find_of_not_holds fun _ => not_holds_ofRows rows, committed]

theorem holds_commit :
    (table.commit tx).Holds other key value ↔ table.Holds other key value ∧ other ≠ tx :=
  release_eq_some

theorem holds_rollback :
    (table.rollback tx).Holds other key value ↔ table.Holds other key value ∧ other ≠ tx :=
  release_eq_some

variable (table reader key)

/-- After a commit another transaction reads as before, or, where it holds nothing, what the committed
transaction has read. -/
theorem find_commit (ne : other ≠ tx) (key : Key) :
    (table.commit tx).find (some other) key = table.find (some other) key ∨
      table.find (some other) key = table.find none key ∧
        (table.commit tx).find (some other) key = table.find (some tx) key := by
  rcases table.cells.read_commit ne key with same | ⟨before, after⟩
  · exact .inl (congrArg join same)
  · exact .inr ⟨congrArg join before, congrArg join after⟩

/-- What a reader sees after a commit, some reader has seen before. -/
theorem exists_find_commit (tx : Tx) (reader : Option Tx) (key : Key) :
    ∃ before, (table.commit tx).find reader key = table.find before key := by
  cases reader with
  | none => exact ⟨some tx, rfl⟩
  | some other =>
    by_cases same : other = tx
    · subst same
      refine ⟨some other, ?_⟩
      rw [find_of_not_holds (fun value held => (holds_commit.mp held).2 rfl)]
      rfl
    · rcases table.find_commit same key with unchanged | ⟨_, after⟩
      · exact ⟨some other, unchanged⟩
      · exact ⟨some tx, after⟩

theorem exists_find_rollback (tx : Tx) (reader : Option Tx) (key : Key) :
    ∃ before, (table.rollback tx).find reader key = table.find before key := by
  cases reader with
  | none => exact ⟨none, rfl⟩
  | some other =>
    by_cases same : other = tx
    · subst same
      refine ⟨none, ?_⟩
      rw [find_of_not_holds (fun value held => (holds_rollback.mp held).2 rfl)]
      rfl
    · exact ⟨some other, congrArg join (read_rollback same)⟩

/-- The reader sees a row like this under the key. -/
def Shows (like : Row → Prop) : Prop :=
  ∃ row, table.find reader key = some row ∧ like row

variable {table reader key}

section Shows

variable {like : Row → Prop}

/-- A transaction sees a row that it has written, or a committed one. -/
theorem Shows.cases (shows : table.Shows (some tx) key like) :
    (∃ row, table.Holds tx key (some row) ∧ like row) ∨ (∀ value, ¬ table.Holds tx key value) ∧ table.Shows none key like := by
  obtain ⟨row, found, alike⟩ := shows
  rcases table.find_cases tx key with ⟨value, held, same⟩ | ⟨free, same⟩
  · rw [found] at same
    exact .inl ⟨row, same ▸ held, alike⟩
  · exact .inr ⟨free, row, same ▸ found, alike⟩

theorem shows_of_holds (held : table.Holds tx key (some row)) (alike : like row) : table.Shows (some tx) key like :=
  ⟨row, find_of_holds held, alike⟩

theorem shows_of_not_holds (free : ∀ value, ¬ table.Holds tx key value) :
    table.Shows (some tx) key like ↔ table.Shows none key like := by
  simp only [Shows, find_of_not_holds free]

/-- What another transaction sees after a commit it has seen before, or the committed transaction has,
and then it would see a committed one. -/
theorem Shows.of_commit (ne : other ≠ tx) (shows : (table.commit tx).Shows (some other) key like) :
    table.Shows (some other) key like ∨
      table.Shows (some tx) key like ∧ (table.Shows none key like → table.Shows (some other) key like) := by
  obtain ⟨row, found, alike⟩ := shows
  rcases table.find_commit ne key with same | ⟨before, after⟩
  · exact .inl ⟨row, same ▸ found, alike⟩
  · refine .inr ⟨⟨row, after ▸ found, alike⟩, ?_⟩
    rintro ⟨old, committed, also⟩
    exact ⟨old, before.trans committed, also⟩

end Shows

theorem find_rollback (table : RowTable Tx keyOf) (ne : other ≠ tx) (key : Key) :
    (table.rollback tx).find (some other) key = table.find (some other) key :=
  congrArg join (read_rollback ne)

end Rules

/-- A statement of a transaction writes some cells, once they are free, and leaves the others. -/
structure Steps (writes : Key → Option Row → Prop) (tx : Tx) (before after : RowTable Tx keyOf) : Prop where
  committed : after.cells.committed = before.cells.committed
  pending : ∀ key, after.cells.pending key = before.cells.pending key ∨
    before.cells.Free tx key ∧ ∃ value, writes key value ∧ after.cells.pending key = some (tx, value)

namespace Steps

variable {writes : Key → Option Row → Prop} {tx : Tx} {before middle after : RowTable Tx keyOf}

theorem refl : Steps writes tx before before := ⟨rfl, fun _ => .inl rfl⟩

variable {key : Key} {value : Option Row} {owner : Tx}

theorem write [DecidableEq Key] (steps : Steps writes tx before middle)
    (written : Writes middle after tx key value) (may : writes key value) : Steps writes tx before after := by
  refine ⟨written.committed.trans steps.committed, fun other => ?_⟩
  rw [written.pending]
  by_cases same : other = key
  · subst same
    rw [update_self]
    refine .inr ⟨?_, value, may, rfl⟩
    rcases steps.pending other with kept | ⟨free, _⟩
    · intro version held
      exact written.free version (kept.trans held)
    · exact free
  · rw [update_of_ne same]
    exact steps.pending other

/-- The uncommitted versions afterwards are those before and some that the transaction wrote. -/
theorem holds (steps : Steps writes tx before after)
    (held : after.Holds owner key value) : before.Holds owner key value ∨ owner = tx ∧ writes key value := by
  rcases steps.pending key with kept | ⟨_, version, may, now⟩
  · exact .inl (kept.symm.trans held)
  · cases now.symm.trans held
    exact .inr ⟨rfl, may⟩

/-- A lock that is held stays held. -/
theorem locked (steps : Steps writes tx before after)
    (held : ∃ value, before.Holds owner key value) : ∃ value, after.Holds owner key value := by
  obtain ⟨value, held⟩ := held
  rcases steps.pending key with kept | ⟨free, version, _, now⟩
  · exact ⟨value, kept.trans held⟩
  · cases free _ held
    exact ⟨version, now⟩

variable [DecidableEq Tx]

/-- The transaction reads what it wrote, and otherwise what it has read before; nobody else sees what it wrote. -/
theorem find (steps : Steps writes tx before after) (reader : Option Tx) (key : Key) :
    after.find reader key = before.find reader key ∨ reader = some tx ∧ writes key (after.find reader key) := by
  cases reader with
  | none => exact .inl (by simp only [RowTable.find, steps.committed])
  | some reader =>
    rcases steps.pending key with kept | ⟨free, value, may, now⟩
    · exact .inl (by simp only [RowTable.find, LockedTable.read, kept, steps.committed])
    · by_cases ne : tx = reader
      · subst ne
        exact .inr ⟨rfl, by rwa [find_of_holds now]⟩
      · have mine : ∀ version, ¬ before.Holds reader key version := fun version held => ne (free _ held).symm
        have not : ∀ version, ¬ after.Holds reader key version := by
          intro version held
          cases now.symm.trans held
          exact ne rfl
        rw [find_of_not_holds mine, find_of_not_holds not]
        exact .inl (by simp only [RowTable.find, steps.committed])

theorem find_of_ne (steps : Steps writes tx before after) {reader : Option Tx} (other : reader ≠ some tx) (key : Key) :
    after.find reader key = before.find reader key :=
  (steps.find reader key).resolve_right fun written => other written.1

theorem shows_of_ne (steps : Steps writes tx before after) {reader : Option Tx} (other : reader ≠ some tx)
    {like : Row → Prop} : after.Shows reader key like ↔ before.Shows reader key like := by
  simp only [Shows, steps.find_of_ne other]

end Steps

end RowTable

end Cordis
