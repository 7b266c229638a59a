import Cordis.Guild.WriteEffects
import Cordis.Machine.Provenance

/-! # What the uncommitted rows of a guild transaction come from

`Traced` collects what holds in every state of the service whatever is interleaved: the running scripts
keep their discipline, every uncommitted row was written by a statement that the discipline allowed, and
a guild in which some membership was found is not deleted.
-/

namespace Cordis.Guild

open RowTable Service GuildDatabase
open Service (Listed Disciplined Audited Provenance Wrote Traces)
open List

section Writes

/-- The statements that write the row of a member. -/
inductive MemberWrites : Statement → ℤ × ℤ → Option Member → Prop where
  | joins {guildID userID : ℤ} : MemberWrites (.write (.createGuildMember guildID userID false)) (guildID, userID)
      (some ⟨guildID, userID, false⟩)
  | leaves {guildID userID : ℤ} : MemberWrites (.write (.removeGuildMember guildID userID)) (guildID, userID)
      (some ⟨guildID, userID, true⟩)

inductive BanWrites : Statement → Ban → Option Ban → Prop where
  | adds {ban : Ban} : BanWrites (.write (.upsertGuildBan ban)) ban (some ban)
  | drops {ban : Ban} : BanWrites (.write (.deleteGuildBan ban)) ban none

inductive MemberRoleWrites : Statement → MemberRole → Option MemberRole → Prop where
  | adds {assignment : MemberRole} :
      MemberRoleWrites (.write (.addGuildMemberRole assignment)) assignment (some assignment)
  | drops {seen : List MemberRole} {assignment : MemberRole} :
      MemberRoleWrites (.write (.deleteMemberRoles seen)) assignment none

/-- An overwrite that replaces another one keeps its guild. -/
inductive OverwriteWrites (tables : GuildTables) : Statement → ℤ × AppliesTo × ℤ → Option Overwrite → Prop where
  | adds {overwrite : Overwrite} :
      OverwriteWrites tables (.write (.upsertGuildChannelPermissionOverwrite overwrite)) overwrite.key (some overwrite)
  | replaces {overwrite row : Overwrite} (present : row ∈ tables.overwrites) (same : row.key = overwrite.key) :
      OverwriteWrites tables (.write (.upsertGuildChannelPermissionOverwrite overwrite)) row.key
        (some { row with allow := overwrite.allow, deny := overwrite.deny })
  | drops {seen : List (ℤ × AppliesTo × ℤ)} {key : ℤ × AppliesTo × ℤ} :
      OverwriteWrites tables (.write (.deleteOverwrites seen)) key none

/-- The row of a role is new, or the one that its transaction sees, with one column changed. -/
inductive RoleWrites (tables : GuildTables) : Statement → ℤ → Option Role → Prop where
  | creates {role : Role} (fresh : role.id ∉ tables.roles.map Role.id) :
      RoleWrites tables (.write (.createGuildRole role)) role.id (some role)
  | updates {guildID roleID : ℤ} {permissions : Option Permissions} {role : Role}
      (loaded : tables.getGuildRole guildID roleID = some role) :
      RoleWrites tables (.write (.updateGuildRole guildID roleID permissions)) role.id
        (some { role with permissions := permissions.getD role.permissions })
  | moves {guildID : ℤ} {positions : List (ℤ × ℕ)} {seen : List ℤ} {role : Role} (row : role ∈ tables.roles)
      (moved : GuildTables.UpdatesPosition guildID positions role = true) :
      RoleWrites tables (.write (.updateGuildRolePositions guildID positions seen)) role.id
        (some { role with position := (positions.lookup role.id).getD role.position })
  | deletes {guildID roleID : ℤ} {role : Role} (loaded : tables.getGuildRole guildID roleID = some role)
      (plain : role.isDefault = false) :
      RoleWrites tables (.write (.deleteGuildRole guildID roleID)) role.id (some { role with deleted := true })

/-- A guild's row changes in its revision, and by a transfer in its owner. -/
inductive GuildWrites (tables : GuildTables) : Statement → ℤ → Option GuildRow → Prop where
  | bumps {w : Write} {guild : GuildRow} {count : ℕ} (row : guild ∈ tables.guilds) :
      GuildWrites tables (.write w) guild.id (some { guild with accessRevision := guild.accessRevision + count })
  | transfers {guildID ownerID newOwnerID : ℤ} {guild : GuildRow} (loaded : tables.getGuild guildID = some guild) :
      GuildWrites tables (.write (.transferGuildOwnership guildID ownerID newOwnerID)) guild.id
        (some { guild with ownerID := newOwnerID, accessRevision := guild.accessRevision + 1 })

variable {limits : GuildLimits} {db next : GuildDatabase} {tx : ℕ} {statement : Statement} {reply : statement.Reply}

section

variable (ran : db.exec limits tx statement = some (next, reply))

include ran

theorem guilds_exec : Steps (GuildWrites (db.view (some tx)) statement) tx db.guilds next.guilds := by
  refine steps_exec guilds ran ?_
  rintro w rfl middle change after makes steps changed
  cases changed with
  | guild writes _ =>
    cases makes with
    | bump row => exact steps.write writes (.bumps row)
    | transfer loaded _ => exact steps.write writes (.transfers loaded)
  | _ =>
    rw [‹after = _›]
    exact steps

theorem members_exec : Steps (MemberWrites statement) tx db.members next.members := by
  refine steps_exec members ran ?_
  rintro w rfl middle change after makes steps changed
  cases changed with
  | member writes _ =>
    cases makes with
    | joins => exact steps.write writes .joins
    | leaves => exact steps.write writes .leaves
  | _ =>
    rw [‹after = _›]
    exact steps

/-- Nobody else sees a membership change before it is committed. -/
theorem active_exec {reader : Option ℕ} {guildID userID : ℤ} (other : reader ≠ some tx) :
    next.Active reader guildID userID ↔ db.Active reader guildID userID :=
  (members_exec ran).shows_of_ne other

theorem bans_exec : Steps (BanWrites statement) tx db.bans next.bans := by
  refine steps_exec bans ran ?_
  rintro w rfl middle change after makes steps changed
  cases changed with
  | addBan writes _ =>
    cases makes
    exact steps.write writes .adds
  | dropBan writes _ =>
    cases makes
    exact steps.write writes .drops
  | _ =>
    rw [‹after = _›]
    exact steps

theorem memberRoles_exec : Steps (MemberRoleWrites statement) tx db.memberRoles next.memberRoles := by
  refine steps_exec memberRoles ran ?_
  rintro w rfl middle change after makes steps changed
  cases changed with
  | addMemberRole writes _ =>
    cases makes
    exact steps.write writes .adds
  | dropMemberRole writes _ =>
    cases makes
    exact steps.write writes .drops
  | _ =>
    rw [‹after = _›]
    exact steps

theorem roles_exec : Steps (RoleWrites (db.view (some tx)) statement) tx db.roles next.roles := by
  refine steps_exec roles ran ?_
  rintro w rfl middle change after makes steps changed
  cases changed with
  | role writes _ =>
    cases makes with
    | createRole fresh => exact steps.write writes (.creates fresh)
    | updateRole loaded => exact steps.write writes (.updates loaded)
    | moveRole row moved => exact steps.write writes (.moves row moved)
    | deleteRole loaded plain =>
      have deletes := RoleWrites.deletes loaded plain
      exact steps.write writes deletes
  | _ =>
    rw [‹after = _›]
    exact steps

theorem overwrites_exec : Steps (OverwriteWrites (db.view (some tx)) statement) tx db.overwrites next.overwrites := by
  refine steps_exec overwrites ran ?_
  rintro w rfl middle change after makes steps changed
  cases changed with
  | overwrite writes _ =>
    cases makes with
    | addOverwrite => exact steps.write writes .adds
    | replaceOverwrite present same =>
      have replaces := OverwriteWrites.replaces present same
      exact steps.write writes replaces
  | dropOverwrite writes _ =>
    cases makes
    exact steps.write writes .drops
  | _ =>
    rw [‹after = _›]
    exact steps

end

variable (limits)

theorem members_traces : Traces (guildService limits) members MemberWrites :=
  ⟨fun ran => members_exec ran, fun _ _ => rfl, fun _ _ => rfl⟩

theorem bans_traces : Traces (guildService limits) bans BanWrites :=
  ⟨fun ran => bans_exec ran, fun _ _ => rfl, fun _ _ => rfl⟩

theorem memberRoles_traces : Traces (guildService limits) memberRoles MemberRoleWrites :=
  ⟨fun ran => memberRoles_exec ran, fun _ _ => rfl, fun _ _ => rfl⟩

end Writes

section Steady

variable {limits : GuildLimits} {db next : GuildDatabase} {tx : ℕ} {life : ℤ → Option Bool}

/-- Every reader sees the same guilds, and the same ones as deleted. -/
def GuildDatabase.Steady (life : ℤ → Option Bool) (db : GuildDatabase) : Prop :=
  ∀ reader guildID, (db.guilds.find reader guildID).map GuildRow.deleted = life guildID

variable (steady : db.Steady life)

include steady

theorem GuildDatabase.Steady.commit (tx : ℕ) : (db.commit tx).Steady life := by
  intro reader guildID
  obtain ⟨before, same⟩ := db.guilds.exists_find_commit tx reader guildID
  exact (congrArg _ same).trans (steady before guildID)

theorem GuildDatabase.Steady.rollback (tx : ℕ) : (db.rollback tx).Steady life := by
  intro reader guildID
  obtain ⟨before, same⟩ := db.guilds.exists_find_rollback tx reader guildID
  exact (congrArg _ same).trans (steady before guildID)

variable {reader : Option ℕ} {guild : GuildRow}

theorem GuildDatabase.Steady.of_mem (row : guild ∈ (db.view reader).guilds) :
    life guild.id = some guild.deleted := by
  have found := mem_rows.mp row
  rw [← steady reader guild.id, found, Option.map_some]

/-- No statement here creates or deletes a guild. -/
theorem GuildDatabase.Steady.exec {statement : Statement} {reply : statement.Reply}
    (ran : db.exec limits tx statement = some (next, reply)) : next.Steady life := by
  intro reader guildID
  have before := steady reader guildID
  rcases (guilds_exec ran).find reader guildID with same | ⟨_, written⟩
  · rwa [same]
  · generalize next.guilds.find reader guildID = row at written
    cases written with
    | bumps row => exact (steady.of_mem row).symm
    | transfers loaded =>
      have row := steady.of_mem (mem_of_find?_eq_some loaded)
      exact row.symm

/-- Where a membership has been found the guild is not deleted, and one that is not found is not there. -/
theorem GuildDatabase.Steady.of_getGuildForMember_none {guildID userID : ℤ}
    (live : life guildID = some false) (missing : (db.view reader).getGuildForMember guildID userID = none) :
    ¬ db.Active reader guildID userID := by
  intro active
  have seen := steady reader guildID
  rw [live] at seen
  obtain ⟨guild, found, notDeleted⟩ := Option.map_eq_some_iff.mp seen
  have key : guild.id = guildID := key_of_find found
  have row : guild ∈ (db.view reader).guilds := mem_rows.mpr (key ▸ found)
  refine find?_eq_none.mp missing guild row ?_
  simp [key, notDeleted, isMember_view.mpr active]

theorem GuildDatabase.Steady.of_getGuildForMember {guildID userID : ℤ}
    (loaded : (db.view reader).getGuildForMember guildID userID = some guild) : life guildID = some false := by
  have found := find?_some loaded
  simp only [decide_eq_true_eq] at found
  obtain ⟨rfl, live, _⟩ := found
  rw [steady.of_mem (mem_of_find?_eq_some loaded), live]

end Steady

/-- The service before any request. -/
def GuildTables.initial (tables : GuildTables) : GuildServiceState := { store := tables.database }

/-- The deleted and the other guilds of some tables. -/
def GuildTables.life (tables : GuildTables) (guildID : ℤ) : Option Bool :=
  (tables.guilds.find? fun guild => guild.id = guildID).map GuildRow.deleted

section Traced

/-- What holds in every state of the service. -/
structure Traced (life : ℤ → Option Bool) (state : GuildServiceState) : Prop where
  listed : Listed state
  disciplined : Disciplined Allowed (fun _ _ _ => True) state
  audited : Audited Allowed state
  members : Provenance GuildDatabase.members Allowed MemberWrites state
  bans : Provenance GuildDatabase.bans Allowed BanWrites state
  memberRoles : Provenance GuildDatabase.memberRoles Allowed MemberRoleWrites state
  steady : state.store.Steady life
  /-- A membership is found only in a guild that is not deleted. -/
  live : state.running.All fun _ task => ∀ guildID userID guild,
    ⟨.query (.getGuildForMember guildID userID), some guild⟩ ∈ task.log → life guildID = some false

variable {limits : GuildLimits} {state next : GuildServiceState} {event : ServiceEvent GuildRequest}
variable {life : ℤ → Option Bool}

theorem steady_step (steady : state.store.Steady life) (step : (guildService limits).machine.step state event = some next) :
    next.store.Steady life := by
  cases transition_step step with
  | begin fresh => exact steady
  | exec current ran => exact steady.exec ran
  | commit current => exact steady.commit _
  | rollback current => exact steady.rollback _

theorem Traced.step (traced : Traced life state) (step : (guildService limits).machine.step state event = some next) :
    Traced life next where
  listed := listed_step traced.listed step
  disciplined := disciplined_step script_disciplined traced.disciplined step
  audited := audited_step traced.disciplined traced.audited step
  members := provenance_step (members_traces limits) traced.listed traced.disciplined traced.members step
  bans := provenance_step (bans_traces limits) traced.listed traced.disciplined traced.bans step
  memberRoles := provenance_step (memberRoles_traces limits) traced.listed traced.disciplined traced.memberRoles step
  steady := steady_step traced.steady step
  live := by
    have live := traced.live
    cases transition_step step with
    | begin fresh => exact live.set (by simp)
    | @exec id request log statement rest store reply current ran =>
      refine live.set fun guildID userID guild member => ?_
      rcases mem_cons.mp member with new | old
      · cases new
        obtain ⟨_, loaded⟩ := exec_query_eq_some.mp ran
        exact traced.steady.of_getGuildForMember loaded.symm
      · exact live _ _ current guildID userID guild old
    | commit current | rollback current => exact live.drop _

theorem traced_initial (tables : GuildTables) : Traced tables.life tables.initial where
  listed := Pool.all_empty _
  disciplined := Pool.all_empty _
  audited := Pool.all_empty _
  members _ _ _ held := (not_holds_ofRows _ held).elim
  bans _ _ _ held := (not_holds_ofRows _ held).elim
  memberRoles _ _ _ held := (not_holds_ofRows _ held).elim
  steady reader guildID := congrArg (Option.map GuildRow.deleted) (find_ofRows _ reader guildID)
  live := Pool.all_empty _

section Held

variable {tx : ℕ} {member : Member}

/-- A transaction that has made a user a member has seen no ban. -/
theorem Traced.joins (traced : Traced life state) {key : ℤ × ℤ}
    (held : state.store.members.Holds tx key (some member)) (live : member.deleted = false) :
    ∃ task, state.running tx = some task ∧ task.request.Joins = true ∧
      ⟨.query (.seenBan key.1 key.2), false⟩ ∈ task.log := by
  obtain ⟨task, running, earlier, statement, reply, suffix, may, writes⟩ := traced.members _ _ _ held
  cases writes with
  | joins => exact ⟨task, running, may.1, suffix.subset (mem_cons_of_mem _ may.2)⟩
  | leaves => cases live

variable {guildID userID : ℤ}

/-- A transaction that has ended a membership is that of a departure, which has cleaned up and has seen
another owner. -/
theorem Traced.leaves (traced : Traced life state)
    (held : state.store.members.Holds tx (guildID, userID) (some member)) (gone : member.deleted = true) :
    ∃ task earlier, state.running tx = some task ∧ earlier <:+ task.log ∧
      Allowed task.request earlier (.write (.removeGuildMember guildID userID)) := by
  obtain ⟨task, running, earlier, statement, reply, suffix, may, writes⟩ := traced.members _ _ _ held
  cases writes with
  | joins => cases gone
  | leaves => exact ⟨task, earlier, running, (suffix_cons ..).trans suffix, may⟩

theorem active_cases {db : GuildDatabase} {tx : ℕ} (active : db.Active (some tx) guildID userID) :
    db.Active none guildID userID ∨
      ∃ member, db.members.Holds tx (guildID, userID) (some member) ∧ member.deleted = false :=
  (Shows.cases active).symm.imp And.right id

/-- A member whose membership the transaction cannot have ended is one in its eyes. -/
theorem Traced.active_of_stays (traced : Traced life state) (active : state.store.Active none guildID userID)
    (stays : ∀ task, state.running tx = some task → ∀ earlier, earlier <:+ task.log →
      ¬ Allowed task.request earlier (.write (.removeGuildMember guildID userID))) :
    state.store.Active (some tx) guildID userID := by
  rcases state.store.members.find_cases tx (guildID, userID) with ⟨value, held, _⟩ | ⟨free, _⟩
  · cases value with
    | none =>
      obtain ⟨_, _, _, _, _, _, _, writes⟩ := traced.members _ _ _ held
      cases writes
    | some member =>
      refine shows_of_holds held (Bool.eq_false_iff.mpr fun gone => ?_)
      obtain ⟨task, earlier, running, suffix, may⟩ := traced.leaves held gone
      exact stays task running earlier suffix may
  · exact (shows_of_not_holds free).mpr active

end Held

end Traced

end Cordis.Guild
