import Mathlib.Data.List.Basic

/-! # Logs that retain a suffix

A producer numbers its items by appending them to a log and keeps only the items after a low-water
mark. The mark rises for two unrelated reasons: a consumer releases a prefix, and a capacity bound
evicts the oldest items. Both are the same move on the mark, so what is retained is always one
suffix of the log, and a reader at position `n` can be served exactly when the mark has not passed
`n`. The log itself is never rewritten; only the mark decides what can still be read.
-/

namespace Cordis

open List

section Numbered

variable {α : Type*} (key : α → ℕ)

/-- The items carry consecutive numbers, the first of them `first`. -/
def Numbered (first : ℕ) (items : List α) : Prop := items.map key = List.range' first items.length

variable {key} {first : ℕ} {items : List α}

theorem numbered_nil (first : ℕ) : Numbered key first [] := rfl

theorem numbered_cons {x : α} :
    Numbered key first (x :: items) ↔ key x = first ∧ Numbered key (first + 1) items := by
  simp [Numbered, range'_succ]

variable (numbered : Numbered key first items)

include numbered

theorem Numbered.append {x : α} (next : key x = first + items.length) : Numbered key first (items ++ [x]) := by
  simp only [Numbered, map_append, length_append, map_cons, map_nil,
    length_cons, length_nil, range'_concat, Nat.one_mul, next]
  rw [numbered]

theorem Numbered.drop (k : ℕ) : Numbered key (first + k) (items.drop k) := by
  rw [Numbered, map_drop, length_drop, numbered, drop_range', Nat.mul_one]

theorem Numbered.getElem? {i : ℕ} (bound : i < items.length) : items[i]?.map key = some (first + i) := by
  rw [← getElem?_map, numbered, getElem?_range' bound, Nat.one_mul]

/-- Skipping the items numbered up to `n` drops them from the front. -/
theorem Numbered.dropWhile (n : ℕ) :
    items.dropWhile (fun x => decide (key x ≤ n)) = items.drop (n + 1 - first) := by
  induction items generalizing first with
  | nil => simp
  | cons x rest ih =>
    obtain ⟨head, tail⟩ := numbered_cons.mp numbered
    by_cases small : first ≤ n
    · rw [dropWhile_cons_of_pos (by simpa only [head, decide_eq_true_eq] using small), ih tail,
        show n + 1 - first = n + 1 - (first + 1) + 1 by omega, drop_succ_cons]
    · rw [dropWhile_cons_of_neg (by simpa only [head, decide_eq_true_eq] using small),
        show n + 1 - first = 0 by omega, drop_zero]

/-- Selecting the items numbered beyond `n` drops the others, which are all at the front. -/
theorem Numbered.filter (n : ℕ) : items.filter (fun x => decide (n < key x)) = items.drop (n + 1 - first) := by
  induction items generalizing first with
  | nil => simp
  | cons x rest ih =>
    obtain ⟨head, tail⟩ := numbered_cons.mp numbered
    by_cases small : first ≤ n
    · rw [filter_cons_of_neg (by simp only [head, decide_eq_true_eq]; omega), ih tail,
        show n + 1 - first = n + 1 - (first + 1) + 1 by omega, drop_succ_cons]
    · rw [filter_cons_of_pos (by simp only [head, decide_eq_true_eq]; omega), ih tail,
        show n + 1 - first = 0 by omega, show n + 1 - (first + 1) = 0 by omega]
      rfl

end Numbered

/-- A log together with the number of its oldest items that are gone. -/
structure RetainedLog (α : Type*) where
  log : List α
  low : ℕ
  valid : low ≤ log.length

namespace RetainedLog

variable {α : Type*}

/-- Nothing numbered, nothing gone. -/
def empty : RetainedLog α := ⟨[], 0, Nat.le_refl 0⟩

/-- The items that can still be read. -/
def retained (l : RetainedLog α) : List α := l.log.drop l.low

/-- Append one item and evict from the front down to `limit` retained items. -/
def push (l : RetainedLog α) (limit : ℕ) (x : α) : RetainedLog α where
  log := l.log ++ [x]
  low := max l.low (l.log.length + 1 - limit)
  valid := by
    have := l.valid
    simp only [List.length_append, List.length_cons, List.length_nil]
    omega

/-- Release the first `n` items; releasing less than is already gone changes nothing. -/
def release (l : RetainedLog α) (n : ℕ) (bound : n ≤ l.log.length) : RetainedLog α where
  log := l.log
  low := max l.low n
  valid := Nat.max_le.mpr ⟨l.valid, bound⟩

/-- The reader that has consumed `n` items can be served. -/
def Serves (l : RetainedLog α) (n : ℕ) : Prop := l.low ≤ n ∧ n ≤ l.log.length
deriving Decidable

theorem length_retained (l : RetainedLog α) : l.retained.length = l.log.length - l.low :=
  length_drop

/-- Dropping further from what is retained is dropping from the log. -/
theorem drop_retained (l : RetainedLog α) (k : ℕ) : l.retained.drop k = l.log.drop (l.low + k) :=
  drop_drop

/-- A reader that can be served finds its whole suffix among the retained items. -/
theorem Serves.drop_retained {l : RetainedLog α} {n : ℕ} (serves : l.Serves n) :
    l.retained.drop (n - l.low) = l.log.drop n := by
  rw [l.drop_retained, Nat.add_sub_cancel' serves.1]

variable (l : RetainedLog α)

include l

/-- Appending extends what is retained at its end, before any eviction. -/
theorem retained_append (x : α) : (l.log ++ [x]).drop l.low = l.retained ++ [x] :=
  drop_append_of_le_length l.valid

/-- Eviction removes the surplus of the extended suffix from its front. -/
theorem retained_push (limit : ℕ) (x : α) :
    (l.push limit x).retained = (l.retained ++ [x]).drop ((l.retained ++ [x]).length - limit) := by
  rw [← l.retained_append x, drop_drop]
  have := l.valid
  simp only [retained, push, length_drop, length_append, length_cons, length_nil]
  congr 1
  omega

theorem length_retained_push (limit : ℕ) (x : α) : (l.push limit x).retained.length ≤ limit := by
  simp only [retained_push, length_drop]
  omega

/-- Releasing drops the released items that were still retained. -/
theorem retained_release (n : ℕ) (bound : n ≤ l.log.length) :
    (l.release n bound).retained = l.retained.drop (n - l.low) := by
  rw [drop_retained]
  simp only [retained, release]
  congr 1
  omega

theorem length_retained_release (n : ℕ) (bound : n ≤ l.log.length) :
    (l.release n bound).retained.length ≤ l.retained.length := by
  simp only [retained_release, length_drop]
  omega

end RetainedLog

end Cordis
