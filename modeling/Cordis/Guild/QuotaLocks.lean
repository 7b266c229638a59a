import Cordis.Guild.WriteEffects
import Cordis.Machine.AdvisoryLocks

/-! # The locks of the quotas

`CheckResourceQuota` takes an advisory lock for what it counts and keeps it until its transaction ends.
-/

namespace Cordis.Guild

open GuildDatabase

/-- The scope whose lock a statement takes. -/
def quotaScope : Statement → Option (QuotaKind × ℤ)
  | .write (.lockQuotaScope scope) => some scope
  | _ => none

section Locks

variable {db next : GuildDatabase} {tx owner : ℕ} {scope : QuotaKind × ℤ} {change : Change}

/-- A change leaves the locks of the quotas alone, or takes one of them. -/
theorem quotas_applyChange (applied : db.applyChange tx change = some next) :
    next.quotas = db.quotas ∨ ∃ taken, change = .quota taken ∧ db.quotas.write tx taken () = some next.quotas := by
  cases change with
  | quota taken =>
    obtain ⟨quotas, written, rfl⟩ := Option.map_eq_some_iff.mp applied
    exact .inr ⟨taken, rfl, written⟩
  | guild row | member row | role row | addMemberRole row | dropMemberRole row | overwrite row | dropOverwrite row
  | addBan row | dropBan row | invite row =>
    obtain ⟨_, _, rfl⟩ := Option.map_eq_some_iff.mp applied
    exact .inl rfl

theorem pending_applyChange (applied : db.applyChange tx change = some next)
    (held : db.quotas.pending scope = some (owner, ())) : next.quotas.pending scope = some (owner, ()) := by
  rcases quotas_applyChange applied with same | ⟨taken, _, written⟩
  · rw [same]
    exact held
  · obtain ⟨free, locked⟩ := LockedTable.write_eq_some.mp written
    rw [← locked]
    by_cases here : scope = taken
    · subst here
      obtain rfl : owner = tx := free _ held
      exact Function.update_self ..
    · exact (Function.update_of_ne here ..).trans held

theorem takesQuotas (limits : GuildLimits) : TakesLocks (guildService limits) quotas quotaScope where
  takes := by
    intro store next tx statement reply scope ran taken
    have ran : store.exec limits tx statement = some (next, reply) := ran
    unfold quotaScope at taken
    split at taken
    · cases taken
      obtain ⟨applied, _⟩ := exec_write_eq_some ran
      obtain ⟨middle, locked, done⟩ := apply_cons_eq_some.mp applied
      cases done
      obtain ⟨quotas, written, rfl⟩ := Option.map_eq_some_iff.mp locked
      obtain ⟨_, rfl⟩ := LockedTable.write_eq_some.mp written
      exact Function.update_self ..
    · cases taken
  keeps := by
    intro store next tx owner statement reply scope ran held
    have ran : store.exec limits tx statement = some (next, reply) := ran
    cases statement with
    | query q =>
      obtain ⟨rfl, _⟩ := exec_query_eq_some.mp ran
      exact held
    | write w =>
      obtain ⟨applied, _⟩ := exec_write_eq_some ran
      exact apply_keeps (fun db => db.quotas.pending scope = some (owner, ())) held applied
        fun _ _ _ _ kept changed => pending_applyChange changed kept
  commit _ _ := rfl
  rollback _ _ := rfl

end Locks

end Cordis.Guild
