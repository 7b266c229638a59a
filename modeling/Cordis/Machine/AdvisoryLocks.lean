import Cordis.Machine.LockedTable
import Cordis.Machine.Service

/-! # Locks that last as long as a transaction

Some statements of a service take a lock and do nothing else; the lock is released when the transaction
ends. So a transaction that has issued such a statement holds the lock for as long as it runs, and no two
transactions hold one lock.
-/

namespace Cordis

variable {Store Request Call κ : Type} {Reply : Call → Type} {ε α : Type}

/-- The statements with a scope take its lock, and only the end of a transaction releases one. -/
structure TakesLocks (service : Service Store Request Reply ε α) (locks : Store → LockedTable ℕ κ Unit)
    (scope : Call → Option κ) : Prop where
  takes : ∀ {store next : Store} {tx : ℕ} {statement : Call} {reply : Reply statement} {key : κ},
    service.exec store tx statement = some (next, reply) → scope statement = some key →
      (locks next).pending key = some (tx, ())
  keeps : ∀ {store next : Store} {tx owner : ℕ} {statement : Call} {reply : Reply statement} {key : κ},
    service.exec store tx statement = some (next, reply) → (locks store).pending key = some (owner, ()) →
      (locks next).pending key = some (owner, ())
  commit : ∀ store tx, locks (service.commit store tx) = (locks store).commit tx
  rollback : ∀ store tx, locks (service.rollback store tx) = (locks store).rollback tx

/-- Every running transaction holds the locks that it has taken. -/
def LocksHeld (locks : Store → LockedTable ℕ κ Unit) (scope : Call → Option κ)
    (state : ServiceState Store Request Reply ε α) : Prop :=
  state.running.All fun tx task => ∀ statement ∈ task.calls, ∀ key, scope statement = some key →
    (locks state.store).pending key = some (tx, ())

variable {service : Service Store Request Reply ε α} {locks : Store → LockedTable ℕ κ Unit} {scope : Call → Option κ}
variable {state next : ServiceState Store Request Reply ε α} {event : ServiceEvent Request}

/-- A lock has one holder. -/
theorem LocksHeld.unique (held : LocksHeld locks scope state) {tx other : ℕ} {task rival : Task Request Reply ε α}
    {statement another : Call} {key : κ} (running : state.running tx = some task) (rivals : state.running other = some rival)
    (taken : statement ∈ task.calls) (also : another ∈ rival.calls) (first : scope statement = some key)
    (second : scope another = some key) : tx = other := by
  have mine := held tx task running statement taken key first
  have theirs := held other rival rivals another also key second
  have same := mine.symm.trans theirs
  simp only [Option.some.injEq, Prod.mk.injEq, and_true] at same
  exact same

theorem locksHeld_step (takes : TakesLocks service locks scope) (held : LocksHeld locks scope state)
    (step : service.machine.step state event = some next) : LocksHeld locks scope next := by
  cases Service.transition_step step with
  | begin fresh => exact held.set (by simp [Task.calls, issued])
  | @exec tx request log statement rest store reply current ran =>
    refine .set_of ?_ fun other task _ running another taken key keyed => ?_
    · rintro another (_ | ⟨_, before⟩) key keyed
      · exact takes.takes ran keyed
      · exact takes.keeps ran (held tx _ current another before key keyed)
    · exact takes.keeps ran (held other task running another taken key keyed)
  | commit current | rollback current =>
    refine .drop_of fun other task ne running another taken key keyed => ?_
    simp only [takes.commit, takes.rollback]
    exact LockedTable.release_eq_some.mpr ⟨held other task running another taken key keyed, ne⟩

end Cordis
