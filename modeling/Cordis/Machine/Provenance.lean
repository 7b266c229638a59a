import Cordis.Machine.RowTable
import Cordis.Machine.Service

/-! # Where uncommitted versions come from

In a service whose store has row tables, an uncommitted version of a row was written by a statement of
the transaction that holds it, and that transaction is still running; so what the discipline of the
service asks of the statement has been seen by that transaction. A property of the committed rows is
then a matter of what such a transaction has seen when it commits.
-/

namespace Cordis

namespace Service

variable {Store Request Call : Type} {Reply : Call → Type} {ε α : Type} {Key Row : Type*} {keyOf : Row → Key}
variable {service : Service Store Request Reply ε α} {state next : ServiceState Store Request Reply ε α}
variable {event : ServiceEvent Request}

/-- The table is written by these statements only, and commits and rolls back with the store. -/
structure Traces (service : Service Store Request Reply ε α) (table : Store → RowTable ℕ keyOf)
    (writes : Call → Key → Option Row → Prop) : Prop where
  exec : ∀ {store next id statement reply}, service.exec store id statement = some (next, reply) →
    RowTable.Steps (writes statement) id (table store) (table next)
  commit : ∀ store id, table (service.commit store id) = (table store).commit id
  rollback : ∀ store id, table (service.rollback store id) = (table store).rollback id

/-- Some statement of the log was allowed when it was issued and writes this version. -/
def Wrote (allowed : Request → Log Reply → Call → Prop) (writes : Call → Key → Option Row → Prop)
    (task : Task Request Reply ε α) (key : Key) (value : Option Row) : Prop :=
  ∃ earlier statement reply, (⟨statement, reply⟩ :: earlier) <:+ task.log ∧ allowed task.request earlier statement ∧
    writes statement key value

/-- Every uncommitted version was written by the transaction that holds it. -/
def Provenance (table : Store → RowTable ℕ keyOf) (allowed : Request → Log Reply → Call → Prop)
    (writes : Call → Key → Option Row → Prop) (state : ServiceState Store Request Reply ε α) : Prop :=
  ∀ owner key value, (table state.store).Holds owner key value →
    ∃ task, state.running owner = some task ∧ Wrote allowed writes task key value

variable {table : Store → RowTable ℕ keyOf} {writes : Call → Key → Option Row → Prop}
variable {allowed : Request → Log Reply → Call → Prop} {post : Request → Log Reply → α → Prop}

theorem provenance_step (traces : Traces service table writes) (listed : Listed state)
    (disciplined : Disciplined allowed post state) (provenance : Provenance table allowed writes state)
    (step : service.machine.step state event = some next) : Provenance table allowed writes next := by
  intro owner key value held
  cases transition_step step with
  | @begin id request fresh =>
    exact listed.exists_begin fresh (provenance owner key value held)
  | @exec id request log statement rest store reply current ran =>
    rcases (traces.exec ran).holds held with before | ⟨rfl, written⟩
    · refine Pool.exists_set current (fun _ => ?_) (provenance owner key value before)
      rintro ⟨earlier, old, oldReply, suffix, may, wrote⟩
      exact ⟨earlier, old, oldReply, suffix.trans (List.suffix_cons ..), may, wrote⟩
    · exact ⟨_, Pool.set_self .., log, statement, reply, List.suffix_rfl, (disciplined _ _ current).1, written⟩
  | commit current | rollback current =>
    simp only [traces.commit, traces.rollback, RowTable.holds_commit, RowTable.holds_rollback] at held
    simpa only [Pool.drop_of_ne _ held.2] using provenance owner key value held.1

end Service

end Cordis
