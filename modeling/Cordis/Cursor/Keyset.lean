import Mathlib.Data.List.Sort

/-! # Pages by key

A sorted list read in pages: each page takes the first keys behind the last key of the page before. What
is behind a page is what the page has left, so the pages are the list.
-/

namespace Cordis.Cursor

open List

variable {Key : Type*} [LinearOrder Key]

/-- The keys behind one, in order. -/
def behind (keys : List Key) (key : Key) : List Key := keys.filter fun other => key < other

theorem pairwise_behind {keys : List Key} (sorted : keys.Pairwise (· < ·)) (key : Key) :
    (behind keys key).Pairwise (· < ·) :=
  sorted.filter _

/-- Behind the last key of a page is what the page has left. -/
theorem behind_getLast {keys page rest : List Key} (sorted : keys.Pairwise (· < ·)) {key : Key}
    (split : behind keys key = page ++ rest) (some : page ≠ []) : behind keys (page.getLast some) = rest := by
  have further : key < page.getLast some := by
    have member : page.getLast some ∈ behind keys key := by
      rw [split]
      exact mem_append_left _ (getLast_mem some)
    simpa using of_mem_filter member
  have again : behind keys (page.getLast some) = behind (behind keys key) (page.getLast some) := by
    unfold behind
    rw [filter_filter]
    refine filter_congr fun other _ => ?_
    by_cases later : page.getLast some < other
    · simp [later, further.trans later]
    · simp [later]
  have ordered := pairwise_behind sorted key
  rw [split, pairwise_append] at ordered
  rw [again, split, behind, filter_append]
  have none : page.filter (fun other => page.getLast some < other) = [] := by
    refine filter_eq_nil_iff.mpr fun other member => ?_
    simp only [decide_eq_true_eq, not_lt]
    rw [← dropLast_append_getLast some, mem_append, mem_singleton] at member
    rcases member with before | rfl
    · have ascending := ordered.1
      rw [← dropLast_append_getLast some, pairwise_append] at ascending
      exact (ascending.2.2 other before _ (by simp)).le
    · exact le_rfl
  have all : rest.filter (fun other => page.getLast some < other) = rest := by
    refine filter_eq_self.mpr fun other member => ?_
    simpa using ordered.2.2 _ (getLast_mem some) other member
  rw [none, all, nil_append]

end Cordis.Cursor
