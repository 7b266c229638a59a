import Mathlib.Tactic.SplitIfs

/-! # Calls that stop at the first error

A Go function that returns an error is a program in `Except`. The rules here take such a program apart:
it succeeds exactly when each of its steps does.
-/

namespace Cordis.Go

variable {ε α β : Type}

/-- Go on if the condition holds, and stop with the error otherwise. -/
def require (condition : Prop) [Decidable condition] (error : ε) : Except ε Unit :=
  if condition then .ok () else .error error

theorem require_eq_ok {condition : Prop} [Decidable condition] {error : ε} {done : Unit} :
    require condition error = .ok done ↔ condition := by
  unfold require
  split_ifs with holds <;> simp [holds]

@[simp] theorem ok_bind (value : α) (next : α → Except ε β) : (Except.ok value >>= next) = next value := rfl

@[simp] theorem error_bind (error : ε) (next : α → Except ε β) : (Except.error error >>= next) = .error error := rfl

variable {result : β} {step : Except ε α}

theorem bind_eq_ok {next : α → Except ε β} :
    (step >>= next) = .ok result ↔ ∃ value, step = .ok value ∧ next value = .ok result := by
  cases step with
  | error error => simp
  | ok value => simp

theorem map_eq_ok {f : α → β} :
    step.map f = .ok result ↔ ∃ value, step = .ok value ∧ f value = result := by
  cases step with
  | error error | ok value => simp [Except.map]

/-- Each result of a list of steps is that of one of them. -/
theorem mem_of_mapM {f : α → Except ε β} {items : List α} {results : List β} (done : items.mapM f = .ok results)
    (member : result ∈ results) : ∃ item ∈ items, f item = .ok result := by
  induction items generalizing results with
  | nil =>
    cases done
    cases member
  | cons item items ih =>
    rw [List.mapM_cons] at done
    obtain ⟨first, here, done⟩ := bind_eq_ok.mp done
    obtain ⟨rest, later, done⟩ := bind_eq_ok.mp done
    cases done
    rcases List.mem_cons.mp member with rfl | member
    · exact ⟨item, List.mem_cons_self, here⟩
    · obtain ⟨other, listed, same⟩ := ih later member
      exact ⟨other, List.mem_cons_of_mem _ listed, same⟩

end Cordis.Go
