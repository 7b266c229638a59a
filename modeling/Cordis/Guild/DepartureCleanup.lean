import Cordis.Guild.Traces

/-! # Who has left a guild has nothing in it

Roles and overwrites of their own are given to users who have been found to be members, and a departure
deletes what it sees of them before it ends the membership. The membership is looked for by a plain read,
so a departure that commits between that look and the insertion of the assignment leaves the assignment
to someone who is not a member any more, and who has it again after joining again.

If nothing is looked up to be given to a user while a departure of that user is past its first look at
the assignments, and no departure takes that look while something is about to be given to its user, then
who is not a member has nothing, and who joins starts with the default role.
-/

namespace Cordis.Guild

open GuildDatabase RowTable Pool
open Service (Apart KeptApart)
open List

/-- The users to whom something is to be given, once they have been looked for. -/
def assigning (request : GuildRequest) (calls : List Statement) : List (ℤ × ℤ) :=
  if request.Assigns then targetChecks calls else []

/-- The users whose departures have looked at their assignments. -/
def departing (_ : GuildRequest) (calls : List Statement) : List (ℤ × ℤ) :=
  calls.filterMap fun
    | .query (.seenMemberRoles guildID userID) => some (guildID, userID)
    | _ => none

/-- The overwrite is for a user of the guild. -/
def Overwrite.BelongsTo (overwrite : Overwrite) (guildID userID : ℤ) : Prop :=
  overwrite.guildID = guildID ∧ overwrite.appliesTo = .member ∧ overwrite.appliesToID = userID

/-- The user has no role but the default one, and no overwrite. -/
structure GuildTables.HasNothing (tables : GuildTables) (guildID userID : ℤ) : Prop where
  roles : ∀ assignment ∈ tables.memberRoles, ¬ (assignment.guildID = guildID ∧ assignment.userID = userID)
  overwrites : ∀ overwrite ∈ tables.overwrites, ¬ overwrite.BelongsTo guildID userID

/-- Who is not a member has nothing in the guild. -/
def GuildTables.DeparturesClear (tables : GuildTables) : Prop :=
  ∀ guildID userID, tables.isMember guildID userID = false → tables.HasNothing guildID userID

/-- Without assignments a user has the default role alone. -/
theorem GuildTables.HasNothing.listGuildMemberRoles {tables : GuildTables} {guildID userID : ℤ}
    (nothing : tables.HasNothing guildID userID) :
    tables.listGuildMemberRoles guildID userID =
      orderBy (fun role => [-role.position, role.id]) (tables.roles.filter fun role =>
        role.guildID = guildID ∧ role.deleted = false ∧ role.isDefault = true) := by
  have none (roleID : ℤ) : ⟨guildID, userID, roleID⟩ ∉ tables.memberRoles :=
    fun assigned => nothing.roles _ assigned ⟨rfl, rfl⟩
  simp [GuildTables.listGuildMemberRoles, none]

section Grants

/-- Something that a user can have in a guild, by its key. -/
inductive Grant where
  | role (assignment : MemberRole)
  | overwrite (key : ℤ × AppliesTo × ℤ)

namespace GuildDatabase

/-- The reader sees the grant as one of the user. -/
def Given (db : GuildDatabase) (reader : Option ℕ) (guildID userID : ℤ) : Grant → Prop
  | .role assignment => db.memberRoles.Shows reader assignment fun row => row.guildID = guildID ∧ row.userID = userID
  | .overwrite key => db.overwrites.Shows reader key fun row => row.BelongsTo guildID userID

/-- The transaction has written the grant for the user. -/
def Giving (db : GuildDatabase) (tx : ℕ) (guildID userID : ℤ) : Grant → Prop
  | .role assignment => ∃ row, db.memberRoles.Holds tx assignment (some row) ∧ row.guildID = guildID ∧ row.userID = userID
  | .overwrite key => ∃ row, db.overwrites.Holds tx key (some row) ∧ row.BelongsTo guildID userID

end GuildDatabase

variable {limits : GuildLimits} {db next : GuildDatabase} {tx other : ℕ} {guildID userID : ℤ} {grant : Grant}

theorem given_cases (given : db.Given (some tx) guildID userID grant) :
    db.Giving tx guildID userID grant ∨ db.Given none guildID userID grant := by
  cases grant with
  | role assignment | overwrite key => exact (Shows.cases given).imp id And.right

@[simp] theorem given_none_commit : (db.commit tx).Given none guildID userID grant ↔ db.Given (some tx) guildID userID grant := by
  cases grant <;> rfl

@[simp] theorem given_none_rollback : (db.rollback tx).Given none guildID userID grant ↔ db.Given none guildID userID grant := by
  cases grant <;> rfl

theorem given_rollback (ne : other ≠ tx) (given : (db.rollback tx).Given (some other) guildID userID grant) :
    db.Given (some other) guildID userID grant := by
  cases grant with
  | role assignment =>
    obtain ⟨row, found, belongs⟩ := given
    exact ⟨row, (db.memberRoles.find_rollback ne _).symm.trans found, belongs⟩
  | overwrite key =>
    obtain ⟨row, found, belongs⟩ := given
    exact ⟨row, (db.overwrites.find_rollback ne _).symm.trans found, belongs⟩

theorem giving_commit (giving : (db.commit tx).Giving other guildID userID grant) :
    db.Giving other guildID userID grant ∧ other ≠ tx := by
  cases grant with
  | role assignment | overwrite key =>
    obtain ⟨row, held, belongs⟩ := giving
    obtain ⟨before, ne⟩ := holds_commit.mp held
    exact ⟨⟨row, before, belongs⟩, ne⟩

section Exec

variable {request : GuildRequest} {log : StatementLog} {statement : Statement} {reply : statement.Reply}

/-- What a statement gives, it gives to someone who has been found, or who had it before. -/
theorem giving_exec (may : Allowed request log statement) (ran : db.exec limits tx statement = some (next, reply))
    (giving : next.Giving other guildID userID grant) :
    db.Giving other guildID userID grant ∨
      other = tx ∧ (FoundMember request log guildID userID ∨ db.Given (some tx) guildID userID grant) := by
  cases grant with
  | role assignment =>
    obtain ⟨row, held, rfl, rfl⟩ := giving
    rcases (memberRoles_exec ran).holds held with before | ⟨rfl, written⟩
    · exact .inl ⟨row, before, rfl, rfl⟩
    · cases written
      exact .inr ⟨rfl, .inl may.1⟩
  | overwrite key =>
    obtain ⟨row, held, belongs⟩ := giving
    rcases (overwrites_exec ran).holds held with before | ⟨rfl, written⟩
    · exact .inl ⟨row, before, belongs⟩
    · cases written with
      | adds =>
        obtain ⟨rfl, toMember, rfl⟩ := belongs
        exact .inr ⟨rfl, .inl (may.2 toMember)⟩
      | replaces present same => exact .inr ⟨rfl, .inr ⟨_, mem_view_overwrites.mp present, belongs⟩⟩

/-- Nobody else sees what a statement gives or takes. -/
theorem given_exec_of_ne {reader : Option ℕ} (ran : db.exec limits tx statement = some (next, reply))
    (ne : reader ≠ some tx) : next.Given reader guildID userID grant ↔ db.Given reader guildID userID grant := by
  cases grant with
  | role assignment => exact (memberRoles_exec ran).shows_of_ne ne
  | overwrite key => exact (overwrites_exec ran).shows_of_ne ne

/-- A transaction sees nothing more of a user than before, unless it has found the user. -/
theorem given_exec (may : Allowed request log statement) (ran : db.exec limits tx statement = some (next, reply))
    (given : next.Given (some tx) guildID userID grant) :
    db.Given (some tx) guildID userID grant ∨ FoundMember request log guildID userID := by
  cases grant with
  | role assignment =>
    obtain ⟨row, found, rfl, rfl⟩ := given
    rcases (memberRoles_exec ran).find (some tx) assignment with same | ⟨_, written⟩
    · exact .inl ⟨row, same.symm.trans found, rfl, rfl⟩
    · rw [found] at written
      cases written
      exact .inr may.1
  | overwrite key =>
    obtain ⟨row, found, belongs⟩ := given
    rcases (overwrites_exec ran).find (some tx) key with same | ⟨_, written⟩
    · exact .inl ⟨row, same.symm.trans found, belongs⟩
    · rw [found] at written
      cases written with
      | adds =>
        obtain ⟨rfl, toMember, rfl⟩ := belongs
        exact .inr (may.2 toMember)
      | replaces present same => exact .inl ⟨_, mem_view_overwrites.mp present, belongs⟩

end Exec

section Deletions

theorem deleteMemberRoles_deletes {seen : List MemberRole} {assignment : MemberRole} {reply : Unit}
    (ran : db.exec limits tx (.write (.deleteMemberRoles seen)) = some (next, reply)) (member : assignment ∈ seen) :
    next.memberRoles.find (some tx) assignment = none := by
  obtain ⟨applied, _⟩ := exec_write_eq_some ran
  have each (before : GuildDatabase) (change : Change) (after : GuildDatabase)
      (made : change ∈ (Write.changes (db.view (some tx)) (.deleteMemberRoles seen)).1)
      (gone : before.memberRoles.find (some tx) assignment = none) (changed : before.applyChange tx change = some after) :
      after.memberRoles.find (some tx) assignment = none := by
    cases makes_of_mem made with
    | bump row =>
      cases changed_of_applyChange changed with
      | guild _ rest => rwa [rest]
    | dropMemberRole =>
      cases changed_of_applyChange changed with
      | dropMemberRole writes _ => rw [writes.find_eq, gone, ite_self]
  cases found : db.memberRoles.find (some tx) assignment with
  | none => exact apply_keeps _ found applied each
  | some row =>
    obtain rfl : row = assignment := key_of_find found
    have dropped : Change.dropMemberRole row ∈ (Write.changes (db.view (some tx)) (.deleteMemberRoles seen)).1 := by
      refine mem_append_left _ (mem_map_of_mem (mem_filter.mpr ⟨?_, by simpa using member⟩))
      exact mem_view_memberRoles.mpr found
    refine apply_reaches _ dropped applied (fun before after changed => ?_) each
    cases changed_of_applyChange changed with
    | dropMemberRole writes _ => rw [writes.find_eq, if_pos ⟨rfl, rfl⟩]

theorem deleteOverwrites_deletes {seen : List (ℤ × AppliesTo × ℤ)} {key : ℤ × AppliesTo × ℤ} {reply : Unit}
    (ran : db.exec limits tx (.write (.deleteOverwrites seen)) = some (next, reply)) (member : key ∈ seen) :
    next.overwrites.find (some tx) key = none := by
  obtain ⟨applied, _⟩ := exec_write_eq_some ran
  have each (before : GuildDatabase) (change : Change) (after : GuildDatabase)
      (made : change ∈ (Write.changes (db.view (some tx)) (.deleteOverwrites seen)).1)
      (gone : before.overwrites.find (some tx) key = none) (changed : before.applyChange tx change = some after) :
      after.overwrites.find (some tx) key = none := by
    cases makes_of_mem made with
    | bump row =>
      cases changed_of_applyChange changed with
      | guild _ rest => rwa [rest]
    | dropOverwrite =>
      cases changed_of_applyChange changed with
      | dropOverwrite writes _ => rw [writes.find_eq, gone, ite_self]
  cases found : db.overwrites.find (some tx) key with
  | none => exact apply_keeps _ found applied each
  | some row =>
    obtain rfl : row.key = key := key_of_find found
    have dropped : Change.dropOverwrite row.key ∈ (Write.changes (db.view (some tx)) (.deleteOverwrites seen)).1 := by
      refine mem_append_left _ (mem_map.mpr ⟨row, mem_filter.mpr ⟨?_, by simpa using member⟩, rfl⟩)
      exact mem_view_overwrites.mpr found
    refine apply_reaches _ dropped applied (fun before after changed => ?_) each
    cases changed_of_applyChange changed with
    | dropOverwrite writes _ => rw [writes.find_eq, if_pos ⟨rfl, rfl⟩]

end Deletions

end Grants

section Invariant

/-- The departure of the user has not seen the grant, or has deleted what it saw. -/
def RuledOut (log : StatementLog) (guildID userID : ℤ) : Grant → Prop
  | .role assignment =>
      (∃ seen, ⟨.query (.seenMemberRoles guildID userID), seen⟩ ∈ log ∧ assignment ∉ seen) ∨ RolesCleared log guildID userID
  | .overwrite key =>
      (∃ seen, ⟨.query (.seenOverwrites guildID .member userID), seen⟩ ∈ log ∧ key ∉ seen) ∨
        OverwritesCleared log guildID userID

/-- What keeps those who are not members without grants. -/
structure CleanupInvariant (life : ℤ → Option Bool) (state : GuildServiceState) : Prop where
  traced : Traced life state
  apart : Apart assigning departing state
  clean : ∀ guildID userID grant, state.store.Given none guildID userID grant → state.store.Active none guildID userID
  /-- Who has been found, to be given something, is a member until the transaction ends. -/
  found : state.running.All fun _ task => ∀ guildID userID, FoundMember task.request task.log guildID userID →
    state.store.Active none guildID userID
  /-- What is given, is given to someone who has been found or has it already. -/
  giving : ∀ tx guildID userID grant, state.store.Giving tx guildID userID grant → ∃ task, state.running tx = some task ∧
    (FoundMember task.request task.log guildID userID ∨ state.store.Given none guildID userID grant)
  ruledOut : state.running.All fun tx task => ∀ guildID userID grant, RuledOut task.log guildID userID grant →
    ¬ state.store.Given (some tx) guildID userID grant

variable {limits : GuildLimits} {life : ℤ → Option Bool} {state next : GuildServiceState} {tx other : ℕ}
variable {guildID userID : ℤ} {grant : Grant} {task : GuildTask}

section

variable {request : GuildRequest} {log : StatementLog} (found : FoundMember request log guildID userID)

include found

theorem FoundMember.mem_assigning : (guildID, userID) ∈ assigning request (issued log) := by
  obtain ⟨assigns, guild, read⟩ := found
  rw [assigning, if_pos assigns]
  exact read.mem_targetChecks

theorem FoundMember.not_departs {oneID anotherID : ℤ} (departs : Departs request oneID anotherID) : False := by
  obtain ⟨checkedID, departure⟩ := departs
  have assigns := found.1
  cases request <;> cases departure <;> cases assigns

end

/-- Only a departure of the user rules anything out. -/
theorem RuledOut.departs (traced : Traced life state) (running : state.running tx = some task)
    (out : RuledOut task.log guildID userID grant) :
    Departs task.request guildID userID ∧ (guildID, userID) ∈ departing task.request task.calls := by
  have looked : ∃ seen, ⟨.query (.seenMemberRoles guildID userID), seen⟩ ∈ task.log := by
    cases grant with
    | role assignment =>
      rcases out with ⟨seen, looked, _⟩ | ⟨seen, earlier, suffix, looked⟩
      · exact ⟨seen, looked⟩
      · exact ⟨seen, suffix.subset (mem_cons_of_mem _ looked)⟩
    | overwrite key =>
      have second : ∃ seen, ⟨.query (.seenOverwrites guildID .member userID), seen⟩ ∈ task.log := by
        rcases out with ⟨seen, looked, _⟩ | ⟨seen, earlier, suffix, looked⟩
        · exact ⟨seen, looked⟩
        · exact ⟨seen, suffix.subset (mem_cons_of_mem _ looked)⟩
      obtain ⟨seen, second⟩ := second
      obtain ⟨earlier, suffix, first, looked⟩ := traced.audited.of_mem running second
      exact ⟨first, suffix.subset (mem_cons_of_mem _ looked)⟩
  obtain ⟨seen, looked⟩ := looked
  obtain ⟨_, _, departs⟩ := traced.audited.of_mem running looked
  exact ⟨departs, mem_filterMap.mpr ⟨_, mem_map_of_mem looked, rfl⟩⟩

/-- What a departure does not see, or deletes, it does not see afterwards. -/
theorem ruledOut_exec {db store : GuildDatabase} {log : StatementLog} {statement : Statement} {reply : statement.Reply}
    (ran : db.exec limits tx statement = some (store, reply))
    (out : RuledOut (⟨statement, reply⟩ :: log) guildID userID grant) :
    RuledOut log guildID userID grant ∨ ¬ store.Given (some tx) guildID userID grant := by
  cases grant with
  | role assignment =>
    rcases out with ⟨seen, looked, missing⟩ | ⟨seen, earlier, suffix, looked⟩
    · rcases mem_cons.mp looked with new | old
      · cases new
        obtain ⟨rfl, rfl⟩ := exec_query_eq_some.mp ran
        refine .inr fun given => missing ?_
        obtain ⟨row, found, belongs⟩ := given
        obtain rfl : row = assignment := key_of_find found
        exact mem_filter.mpr ⟨mem_view_memberRoles.mpr found, by simpa using belongs⟩
      · exact .inl (.inl ⟨seen, old, missing⟩)
    · rcases suffix_cons_iff.mp suffix with new | old
      · cases new
        by_cases member : assignment ∈ seen
        · right
          rintro ⟨row, found, _⟩
          cases (deleteMemberRoles_deletes ran member).symm.trans found
        · exact .inl (.inl ⟨seen, looked, member⟩)
      · exact .inl (.inr ⟨seen, earlier, old, looked⟩)
  | overwrite key =>
    rcases out with ⟨seen, looked, missing⟩ | ⟨seen, earlier, suffix, looked⟩
    · rcases mem_cons.mp looked with new | old
      · cases new
        obtain ⟨rfl, rfl⟩ := exec_query_eq_some.mp ran
        refine .inr fun given => missing ?_
        obtain ⟨row, found, belongs⟩ := given
        obtain rfl : row.key = key := key_of_find found
        exact mem_map_of_mem (mem_filter.mpr
          ⟨mem_view_overwrites.mpr found, by simpa [Overwrite.BelongsTo] using belongs⟩)
      · exact .inl (.inl ⟨seen, old, missing⟩)
    · rcases suffix_cons_iff.mp suffix with new | old
      · cases new
        by_cases member : key ∈ seen
        · right
          rintro ⟨row, found, _⟩
          cases (deleteOverwrites_deletes ran member).symm.trans found
        · exact .inl (.inl ⟨seen, looked, member⟩)
      · exact .inl (.inr ⟨seen, earlier, old, looked⟩)

namespace CleanupInvariant

section

variable (inv : CleanupInvariant life state)

include inv

/-- A user for whom a transaction rules nothing out stays a member when it commits. -/
theorem active_of_stays (active : state.store.Active none guildID userID)
    (stays : ∀ task, state.running tx = some task → ∃ grant, ¬ RuledOut task.log guildID userID grant) :
    state.store.Active (some tx) guildID userID := by
  refine inv.traced.active_of_stays active fun task running earlier suffix may => ?_
  obtain ⟨grant, kept⟩ := stays task running
  obtain ⟨_, ⟨roles, before, rolesSuffix, rolesSeen⟩, overwrites, start, overwritesSuffix, overwritesSeen⟩ := may
  cases grant with
  | role assignment => exact kept (.inr ⟨roles, before, rolesSuffix.trans suffix, rolesSeen⟩)
  | overwrite key => exact kept (.inr ⟨overwrites, start, overwritesSuffix.trans suffix, overwritesSeen⟩)

/-- Whoever has something in the eyes of a transaction is a committed member. -/
theorem active_of_given (given : state.store.Given (some tx) guildID userID grant) :
    state.store.Active none guildID userID := by
  rcases given_cases given with giving | committed
  · obtain ⟨task, running, found | committed⟩ := inv.giving _ _ _ _ giving
    · exact inv.found tx task running _ _ found
    · exact inv.clean _ _ _ committed
  · exact inv.clean _ _ _ committed

theorem found_commit (ne : other ≠ tx) (running : state.running other = some task)
    (found : FoundMember task.request task.log guildID userID) : state.store.Active (some tx) guildID userID := by
  refine inv.active_of_stays (inv.found other task running _ _ found) fun rival rivals => ⟨.role ⟨guildID, userID, 0⟩, fun out => ?_⟩
  obtain ⟨_, leaves⟩ := out.departs inv.traced rivals
  exact inv.apart other tx task rival (Ne.symm ne) running rivals _ found.mem_assigning leaves

theorem ruledOut_commit (ne : other ≠ tx) (running : state.running other = some task)
    (out : RuledOut task.log guildID userID grant) : ¬ (state.store.commit tx).Given (some other) guildID userID grant := by
  have before := inv.ruledOut other task running _ _ _ out
  intro given
  have seen : state.store.Given (some other) guildID userID grant ∨ state.store.Given (some tx) guildID userID grant ∧
      (state.store.Given none guildID userID grant → state.store.Given (some other) guildID userID grant) := by
    cases grant with
    | role assignment | overwrite key => exact Shows.of_commit ne given
  rcases seen with mine | ⟨theirs, committed⟩
  · exact before mine
  · rcases given_cases theirs with giving | old
    · obtain ⟨rival, rivals, found | old⟩ := inv.giving _ _ _ _ giving
      · obtain ⟨_, leaves⟩ := out.departs inv.traced running
        exact inv.apart tx other rival task ne rivals running _ found.mem_assigning leaves
      · exact before (committed old)
    · exact before (committed old)

end

section Exec

variable {request : GuildRequest} {log : StatementLog} {statement : Statement} {rest : statement.Reply → Program Unit}
variable {store : GuildDatabase} {reply : statement.Reply}

/-- A transaction that is to give something has not made the user a member itself. -/
theorem found_check (inv : CleanupInvariant life state) {guild : GuildRow} {rest : Option GuildRow → Program Unit}
    (current : state.running tx = some ⟨request, log, .call (.query (.getGuildForMember guildID userID)) rest⟩)
    (assigns : request.Assigns = true)
    (loaded : (state.store.view (some tx)).getGuildForMember guildID userID = some guild) :
    state.store.Active none guildID userID := by
  rcases active_cases (of_getGuildForMember loaded).2 with active | ⟨member, held, live⟩
  · exact active
  · obtain ⟨task, running, joins, _⟩ := inv.traced.joins held live
    cases current.symm.trans running
    cases request <;> cases joins <;> cases assigns

theorem exec {after : GuildServiceState} (inv : CleanupInvariant life state)
    (current : state.running tx = some ⟨request, log, .call statement rest⟩)
    (ran : state.store.exec limits tx statement = some (store, reply))
    (isAfter : after = { state with store, running := state.running.set tx ⟨request, ⟨statement, reply⟩ :: log, rest reply⟩ })
    (traced : Traced life after) (apart : Apart assigning departing after) : CleanupInvariant life after := by
  subst isAfter
  have may : Allowed request log statement := (inv.traced.disciplined _ _ current).1
  have active (guildID userID : ℤ) : store.Active none guildID userID ↔ state.store.Active none guildID userID :=
    active_exec ran (by simp)
  have given (guildID userID : ℤ) (grant : Grant) :
      store.Given none guildID userID grant ↔ state.store.Given none guildID userID grant :=
    given_exec_of_ne ran (by simp)
  refine ⟨traced, apart, ?_, ?_, ?_, ?_⟩
  · simp only [active, given]
    exact inv.clean
  · simp only [active]
    refine inv.found.set ?_
    rintro guildID userID ⟨assigns, guild, earlier, suffix, checked⟩
    rcases suffix_cons_iff.mp suffix with new | old
    · cases new
      obtain ⟨rfl, loaded⟩ := exec_query_eq_some.mp ran
      exact inv.found_check current assigns loaded.symm
    · exact inv.found _ _ current _ _ ⟨assigns, guild, earlier, old, checked⟩
  · simp only [given]
    intro owner guildID userID grant giving
    have grown : log <:+ ⟨statement, reply⟩ :: log := suffix_cons ..
    have mine (giving : state.store.Giving tx guildID userID grant) :
        FoundMember request log guildID userID ∨ state.store.Given none guildID userID grant := by
      obtain ⟨task, running, known⟩ := inv.giving _ _ _ _ giving
      cases current.symm.trans running
      exact known
    by_cases same : owner = tx
    · subst same
      refine ⟨_, set_self .., ?_⟩
      suffices known : FoundMember request log guildID userID ∨ state.store.Given none guildID userID grant from
        known.imp (·.mono grown) id
      rcases giving_exec may ran giving with before | ⟨_, found | seen⟩
      · exact mine before
      · exact .inl found
      · rcases given_cases seen with before | committed
        · exact mine before
        · exact .inr committed
    · rcases giving_exec may ran giving with before | ⟨mine, _⟩
      · obtain ⟨task, running, known⟩ := inv.giving _ _ _ _ before
        exact ⟨task, (set_of_ne _ same _).trans running, known⟩
      · exact (same mine).elim
  · refine .set_of ?_ fun other task ne running guildID userID grant out => ?_
    · intro guildID userID grant out
      rcases ruledOut_exec ran out with old | gone
      · intro seen
        rcases given_exec may ran seen with before | found
        · exact inv.ruledOut _ _ current _ _ _ old before
        · exact found.not_departs (old.departs inv.traced current).1
      · exact gone
    · rw [given_exec_of_ne ran (by simpa using ne)]
      exact inv.ruledOut _ _ running _ _ _ out

end Exec

theorem step {event : ServiceEvent GuildRequest} (inv : CleanupInvariant life state)
    (kept : KeptApart assigning departing state event)
    (step : (guildService limits).machine.step state event = some next) : CleanupInvariant life next := by
  have traced := inv.traced.step step
  have apart : Apart assigning departing next :=
    Service.apart_step (fun request => by simp [assigning, targetChecks, memberChecks]) (fun _ => rfl)
      inv.traced.listed inv.apart kept step
  cases Service.transition_step step with
  | @begin id request fresh =>
    refine ⟨traced, apart, inv.clean, inv.found.set (by simp [FoundMember, TargetRead]),
      fun tx guildID userID grant giving => ?_, inv.ruledOut.set ?_⟩
    · exact inv.traced.listed.exists_begin fresh (inv.giving tx _ _ _ giving)
    · intro guildID userID grant out
      cases grant with
      | role assignment => simp [RuledOut, RolesCleared] at out
      | overwrite key => simp [RuledOut, OverwritesCleared] at out
  | exec current ran => exact inv.exec current ran rfl traced apart
  | @commit id request log value current =>
    refine ⟨traced, apart, fun _ _ grant given => ?_, ?_, ?_, ?_⟩
    · have given := given_none_commit.mp given
      exact inv.active_of_stays (inv.active_of_given given) fun task running =>
        ⟨grant, fun out => inv.ruledOut id task running _ _ _ out given⟩
    · exact .drop_of fun other task ne running guildID userID found => inv.found_commit ne running found
    · intro tx guildID userID grant giving
      obtain ⟨before, ne⟩ := giving_commit giving
      obtain ⟨task, running, known⟩ := inv.giving _ _ _ _ before
      refine ⟨task, (drop_of_ne _ ne).trans running, known.imp_right fun committed => given_none_commit.mpr ?_⟩
      cases grant with
      | role assignment | overwrite key =>
        obtain ⟨row, held, _⟩ := before
        exact (shows_of_not_holds fun value also => ne (also.unique held).1).mpr committed
    · exact .drop_of fun other task ne running guildID userID grant out => inv.ruledOut_commit ne running out
  | @rollback id task current =>
    refine ⟨traced, apart, fun _ _ _ given => inv.clean _ _ _ (given_none_rollback.mp given), inv.found.drop id, ?_, ?_⟩
    · intro tx guildID userID grant giving
      obtain ⟨before, ne⟩ := giving_commit giving
      obtain ⟨task, running, known⟩ := inv.giving _ _ _ _ before
      exact ⟨task, (drop_of_ne _ ne).trans running, known.imp_right given_none_rollback.mpr⟩
    · refine .drop_of fun other task ne running guildID userID grant out given => ?_
      exact inv.ruledOut _ _ running _ _ _ out (given_rollback ne given)

end CleanupInvariant

theorem hasNothing_view {db : GuildDatabase} {reader : Option ℕ} :
    (db.view reader).HasNothing guildID userID ↔ ∀ grant, ¬ db.Given reader guildID userID grant := by
  constructor
  · intro nothing grant given
    cases grant with
    | role assignment =>
      obtain ⟨row, found, belongs⟩ := given
      obtain rfl : row = assignment := key_of_find found
      exact nothing.roles row (mem_view_memberRoles.mpr found) belongs
    | overwrite key =>
      obtain ⟨row, found, belongs⟩ := given
      obtain rfl : row.key = key := key_of_find found
      exact nothing.overwrites row (mem_view_overwrites.mpr found) belongs
  · intro none
    refine ⟨fun assignment row belongs => ?_, fun overwrite row belongs => ?_⟩
    · exact none (.role assignment) ⟨assignment, mem_view_memberRoles.mp row, belongs⟩
    · exact none (.overwrite overwrite.key) ⟨overwrite, mem_view_overwrites.mp row, belongs⟩

theorem cleanupInvariant_initial {tables : GuildTables} (clear : (tables.initial.store.view none).DeparturesClear) :
    CleanupInvariant tables.life tables.initial where
  traced := traced_initial tables
  apart _ _ _ _ _ present := by cases present
  clean guildID userID grant given := by
    by_contra absent
    have gone : (tables.initial.store.view none).isMember guildID userID = false :=
      Bool.eq_false_iff.mpr fun isMember => absent (isMember_view.mp isMember)
    exact hasNothing_view.mp (clear guildID userID gone) grant given
  found := all_empty _
  giving tx guildID userID grant giving := by
    cases grant with
    | role assignment | overwrite key =>
      obtain ⟨row, held, _⟩ := giving
      exact (not_holds_ofRows _ held).elim
  ruledOut := all_empty _

end Invariant

/-- In every run in which the looks of what gives something to a user and of a departure of that user are
kept apart, who is not a member has nothing; and whom a commit makes a member has nothing either, so the
default role alone. -/
theorem departure_clears {limits : GuildLimits} {tables : GuildTables} {final : GuildServiceState}
    {events : List (ServiceEvent GuildRequest)} (clear : (tables.initial.store.view none).DeparturesClear)
    (run : (guildService limits).machine.run tables.initial events = some final)
    (kept : (guildService limits).machine.Along (KeptApart assigning departing) tables.initial events) :
    (final.store.view none).DeparturesClear ∧
      ∀ tx next guildID userID, (guildService limits).machine.step final (.commit tx) = some next →
        (final.store.view none).isMember guildID userID = false → (next.store.view none).isMember guildID userID = true →
        (next.store.view none).HasNothing guildID userID ∧
          (next.store.view none).listGuildMemberRoles guildID userID =
            orderBy (fun role => [-role.position, role.id]) ((next.store.view none).roles.filter fun role =>
              role.guildID = guildID ∧ role.deleted = false ∧ role.isDefault = true) := by
  have inv : CleanupInvariant tables.life final :=
    Machine.invariant_along (fun _ _ _ inv kept step => inv.step kept step) run kept (cleanupInvariant_initial clear)
  have absent {guildID userID : ℤ} (gone : (final.store.view none).isMember guildID userID = false) :
      ¬ final.store.Active none guildID userID :=
    fun active => Bool.eq_false_iff.mp gone (GuildDatabase.isMember_view.mpr active)
  constructor
  · intro guildID userID gone
    exact hasNothing_view.mpr fun grant given => absent gone (inv.clean _ _ _ given)
  · intro tx next guildID userID step gone _
    have nothing : (next.store.view none).HasNothing guildID userID := by
      cases Service.transition_step step with
      | commit current =>
        exact hasNothing_view.mpr fun grant given => absent gone (inv.active_of_given (given_none_commit.mp given))
    exact ⟨nothing, nothing.listGuildMemberRoles⟩

/-- A guild with its owner, another member, and a role besides the default one. -/
def ranksGuild : GuildTables where
  guilds := [{ id := 10, ownerID := 1 }]
  members := [⟨10, 1, false⟩, ⟨10, 2, false⟩]
  roles := [{ id := 10, guildID := 10, permissions := permissionViewChannel, position := 0, isDefault := true },
    { id := 20, guildID := 10, permissions := permissionKickMembers, position := 1 }]
  invites := [{ code := "join-us", guildID := 10 }]

theorem ranksGuild_clear : (ranksGuild.initial.store.view none).DeparturesClear := by
  refine fun guildID userID _ => ⟨fun assignment assigned => ?_, fun overwrite present => ?_⟩
  · exact (not_mem_nil assigned).elim
  · exact (not_mem_nil present).elim

/-- User 2 is given the role, leaves, and is about to join again. -/
def rejoinAfterLeave : List (ServiceEvent GuildRequest) :=
  .begin 0 (.changeMemberRole 10 1 2 20 true) :: List.replicate 5 (.exec 0) ++
    .commit 0 :: .begin 1 (.leave 10 2) :: List.replicate 6 (.exec 1) ++
    .commit 1 :: .begin 2 (.joinByInvite "join-us" 2 5) :: List.replicate 9 (.exec 2)

theorem rejoinAfterLeave_starts_afresh : ∃ final next,
    (guildService {}).machine.run ranksGuild.initial rejoinAfterLeave = some final ∧
      (guildService {}).machine.step final (.commit 2) = some next ∧ (final.store.view none).DeparturesClear ∧
      (next.store.view none).isMember 10 2 = true ∧ (next.store.view none).HasNothing 10 2 := by
  obtain ⟨clear, afresh⟩ := @departure_clears {} _ _ rejoinAfterLeave ranksGuild_clear rfl (by decide)
  refine ⟨_, _, rfl, rfl, clear, ?_, (afresh 2 _ 10 2 rfl ?_ ?_).1⟩
  all_goals decide

/-- User 2 is found to be a member; the user leaves; then the assignment is written. -/
def leaveDuringAssignment : List (ServiceEvent GuildRequest) :=
  .begin 0 (.changeMemberRole 10 1 2 20 true) :: List.replicate 4 (.exec 0) ++
    .begin 1 (.leave 10 2) :: List.replicate 6 (.exec 1) ++ [.commit 1, .exec 0, .commit 0]

/-- The user has the role without being a member, and has it again after joining again. -/
theorem leaveDuringAssignment_keeps_role : ∃ final,
    (guildService {}).machine.run ranksGuild.initial leaveDuringAssignment = some final ∧
      (final.store.view none).isMember 10 2 = false ∧ ⟨10, 2, 20⟩ ∈ (final.store.view none).memberRoles ∧
      (ranksGuild.initial.store.view none).DeparturesClear ∧ ¬ (final.store.view none).DeparturesClear ∧
      ∃ later, (guildService {}).machine.run final
          (.begin 2 (.joinByInvite "join-us" 2 5) :: List.replicate 9 (.exec 2) ++ [.commit 2]) = some later ∧
        (later.store.view none).isMember 10 2 = true ∧
        20 ∈ ((later.store.view none).listGuildMemberRoles 10 2).map Role.id := by
  refine ⟨_, rfl, ?_, ?_, ranksGuild_clear, fun clear => (clear 10 2 ?_).roles ⟨10, 2, 20⟩ ?_ ⟨rfl, rfl⟩, _, rfl, ?_, ?_⟩
  all_goals decide

end Cordis.Guild
