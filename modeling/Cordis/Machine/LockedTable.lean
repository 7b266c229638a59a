import Mathlib.Data.Option.Basic
import Mathlib.Tactic.SplitIfs

/-! # Tables with row locks

A table of a database under the isolation level READ COMMITTED. A transaction that writes a row locks
it and keeps the lock until it commits or rolls back; the row has at most one uncommitted version, which
its transaction reads and no other does. A write of a row that another transaction has locked waits, so
the operation is not enabled.
-/

namespace Cordis

variable {Tx Key Row : Type*}

structure LockedTable (Tx Key Row : Type*) where
  committed : Key → Option Row
  /-- The transaction that has locked the row, and its version of it. -/
  pending : Key → Option (Tx × Row)

namespace LockedTable

/-- No row. -/
def empty : LockedTable Tx Key Row := ⟨fun _ => none, fun _ => none⟩

section Operations

variable [DecidableEq Tx]

variable (table : LockedTable Tx Key Row) (tx : Tx) (key : Key)

/-- The row as the transaction reads it now. -/
def read : Option Row :=
  match table.pending key with
  | some (owner, row) => if owner = tx then some row else table.committed key
  | none => table.committed key

/-- No other transaction has locked the row. -/
def Free : Prop :=
  ∀ version ∈ table.pending key, version.1 = tx

instance : Decidable (table.Free tx key) := by
  unfold Free
  infer_instance

/-- Insert or update a row, once no other transaction has locked it. -/
def write [DecidableEq Key] (table : LockedTable Tx Key Row) (tx : Tx) (key : Key) (row : Row) :
    Option (LockedTable Tx Key Row) :=
  if table.Free tx key then some { table with pending := Function.update table.pending key (some (tx, row)) } else none

/-- The uncommitted versions without those of a transaction that ends. -/
def release : Option (Tx × Row) :=
  (table.pending key).filter fun version => version.1 ≠ tx

def commit : LockedTable Tx Key Row where
  committed := table.read tx
  pending := table.release tx

def rollback : LockedTable Tx Key Row where
  committed := table.committed
  pending := table.release tx

end Operations

section Rules

variable [DecidableEq Tx] {table next : LockedTable Tx Key Row} {tx other : Tx} {key : Key} {row : Row}

theorem read_of_pending (held : table.pending key = some (tx, row)) : table.read tx key = some row := by
  simp only [read, held, ↓reduceIte]

theorem read_of_other (held : table.pending key = some (other, row)) (ne : other ≠ tx) :
    table.read tx key = table.committed key := by
  simp only [read, held, ne, ↓reduceIte]

theorem read_of_unlocked (unlocked : table.pending key = none) : table.read tx key = table.committed key := by
  simp only [read, unlocked]

/-- What a transaction reads is its own version of the row, or the committed one. -/
theorem read_cases (table : LockedTable Tx Key Row) (tx : Tx) (key : Key) :
    (∃ row, table.pending key = some (tx, row) ∧ table.read tx key = some row) ∨
      (∀ row, table.pending key ≠ some (tx, row)) ∧ table.read tx key = table.committed key := by
  cases held : table.pending key with
  | none => exact .inr ⟨by simp, read_of_unlocked held⟩
  | some version =>
    obtain ⟨owner, row⟩ := version
    by_cases same : owner = tx
    · subst same
      exact .inl ⟨row, rfl, read_of_pending held⟩
    · exact .inr ⟨by simp [same], read_of_other held same⟩

theorem release_eq_some {version : Tx × Row} :
    table.release tx key = some version ↔ table.pending key = some version ∧ version.1 ≠ tx := by
  simp [release, Option.filter_eq_some_iff]

omit [DecidableEq Tx] in
/-- A free row is locked by the transaction or by none. -/
theorem Free.cases (free : table.Free tx key) :
    table.pending key = none ∨ ∃ row, table.pending key = some (tx, row) := by
  cases held : table.pending key with
  | none => exact .inl rfl
  | some version =>
    obtain rfl := free version held
    exact .inr ⟨version.2, rfl⟩

theorem write_eq_some [DecidableEq Key] : table.write tx key row = some next ↔
    table.Free tx key ∧ { table with pending := Function.update table.pending key (some (tx, row)) } = next := by
  unfold write
  split_ifs with free <;> simp [free]

/-- A write changes what its own transaction reads of the row, and nothing else. -/
theorem read_write [DecidableEq Key] (written : table.write tx key row = some next) (reader : Tx) (other : Key) :
    next.read reader other = if reader = tx ∧ other = key then some row else table.read reader other := by
  obtain ⟨free, rfl⟩ := write_eq_some.mp written
  by_cases same : other = key
  · subst same
    simp only [read, Function.update_self, and_true]
    by_cases self : tx = reader
    · simp only [self, ↓reduceIte]
    · rw [if_neg self, if_neg (Ne.symm self)]
      rcases free.cases with unlocked | ⟨old, locked⟩
      · rw [unlocked]
      · simp only [locked, self, ↓reduceIte]
  · simp [read, same]

theorem committed_write [DecidableEq Key] (written : table.write tx key row = some next) :
    next.committed = table.committed := by
  obtain ⟨_, rfl⟩ := write_eq_some.mp written
  rfl

/-- After a commit another transaction reads its own version as before, or instead of the committed row
what the committed transaction has read. -/
theorem read_commit (table : LockedTable Tx Key Row) (ne : other ≠ tx) (key : Key) :
    (table.commit tx).read other key = table.read other key ∨
      table.read other key = table.committed key ∧ (table.commit tx).read other key = table.read tx key := by
  rcases table.read_cases other key with ⟨row, held, mine⟩ | ⟨free, theirs⟩
  · left
    rw [mine]
    exact read_of_pending (release_eq_some.mpr ⟨held, ne⟩)
  · refine .inr ⟨theirs, ?_⟩
    rcases (table.commit tx).read_cases other key with ⟨row, held, _⟩ | ⟨_, now⟩
    · exact absurd (release_eq_some.mp held).1 (free row)
    · exact now

theorem read_rollback (ne : other ≠ tx) : (table.rollback tx).read other key = table.read other key := by
  rcases table.read_cases other key with ⟨row, held, mine⟩ | ⟨free, theirs⟩
  · rw [mine]
    exact read_of_pending (release_eq_some.mpr ⟨held, ne⟩)
  · rw [theirs]
    rcases (table.rollback tx).read_cases other key with ⟨row, held, _⟩ | ⟨_, now⟩
    · exact absurd (release_eq_some.mp held).1 (free row)
    · exact now

end Rules

end LockedTable

end Cordis
