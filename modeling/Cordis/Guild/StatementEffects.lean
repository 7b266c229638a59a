import Cordis.Guild.Effects

/-! # The effects of each statement

For every statement on the tables, whose view it can change: that of one user for rows of a member, an
assignment or an overwrite of a member, that of the whole guild for roles, channels, other overwrites
and the guild's own row, and nobody's for positions, parents, bans and invites.
-/

namespace Cordis.Guild.GuildTables

open List

variable {tables after : GuildTables} {guildID userID : ℤ} {audience : ℤ → ℤ → Prop}

/-- Everyone in the guild. -/
def Everyone (guildID : ℤ) : ℤ → ℤ → Prop := fun guild _ => guild = guildID

/-- One user in the guild. -/
def Only (guildID userID : ℤ) : ℤ → ℤ → Prop := fun guild user => guild = guildID ∧ user = userID

theorem id_place (updates : List PositionUpdate) (channel : Channel) : (place updates channel).id = channel.id := by
  unfold place
  cases placement updates channel.id <;> rfl

/-- A column that the change leaves alone. -/
theorem map_updateRows {Row Value : Type} {column : Row → Value} {selected : Row → Bool} {change : Row → Row}
    (keeps : ∀ row, column (change row) = column row) (rows : List Row) :
    (updateRows rows selected change).map column = rows.map column := by
  rw [updateRows, List.map_map]
  refine List.map_congr_left fun row _ => ?_
  simp only [Function.comp_apply]
  split_ifs
  · exact keeps row
  · rfl

theorem ids_positions (tables : GuildTables) (guildID : ℤ) (updates : List PositionUpdate) :
    (tables.updateGuildChannelPositions guildID updates).channels.map Channel.id = tables.channels.map Channel.id :=
  map_updateRows (id_place updates) _

namespace SameRows

theorem of_members {members : List Member} (same : (∃ row ∈ members, row.Active guildID userID) ↔
    ∃ row ∈ tables.members, row.Active guildID userID) : SameRows tables { tables with members } guildID userID :=
  { refl tables guildID userID with member := same }

theorem of_roles {roles : List Role}
    (same : ∀ grant, (∃ role ∈ roles, role.Held tables.memberRoles guildID userID ∧ role.grant = grant) ↔
      ∃ role ∈ tables.roles, role.Held tables.memberRoles guildID userID ∧ role.grant = grant) :
    SameRows tables { tables with roles } guildID userID :=
  { refl tables guildID userID with held := same }

theorem of_memberRoles {memberRoles : List MemberRole}
    (same : ∀ roleID, ⟨guildID, userID, roleID⟩ ∈ memberRoles ↔ ⟨guildID, userID, roleID⟩ ∈ tables.memberRoles) :
    SameRows tables { tables with memberRoles } guildID userID :=
  { refl tables guildID userID with
    held := fun grant => by simp only [Role.Held, same] }

theorem of_channels {channels : List Channel}
    (same : ∀ channelID, (∃ row ∈ channels, row.Live guildID channelID) ↔
      ∃ row ∈ tables.channels, row.Live guildID channelID) :
    SameRows tables { tables with channels } guildID userID :=
  { refl tables guildID userID with channels := same }

theorem of_overwrites {overwrites : List Overwrite}
    (same : ∀ overwrite : Overwrite, overwrite.guildID = guildID →
      overwrite.Concerns guildID (tables.listGuildMemberRoles guildID userID) userID →
        (overwrite ∈ overwrites ↔ overwrite ∈ tables.overwrites)) :
    SameRows tables { tables with overwrites } guildID userID :=
  { refl tables guildID userID with overwrites := same }

end SameRows

namespace Changes

section Members

theorem createGuildMember (created : tables.createGuildMember guildID userID = .ok after) :
    Changes tables after (Only guildID userID) := by
  unfold GuildTables.createGuildMember at created
  split_ifs at created
  split at created
  · cases created
    refine of_bump rfl id fun guild user other => .of_members (exists_append_singleton ?_)
    rintro ⟨rfl, rfl, _⟩
    exact other ⟨⟨rfl, rfl⟩, mem_singleton_self _⟩
  · split_ifs at created
    cases created
    refine of_bump rfl id fun guild user other => .of_members (exists_updateRows fun row _ hit => ?_)
    simp only [decide_eq_true_eq] at hit
    obtain ⟨rfl, rfl⟩ := hit
    have elsewhere : ¬ (row.guildID = guild ∧ row.userID = user) := by
      rintro ⟨rfl, rfl⟩
      exact other ⟨⟨rfl, rfl⟩, mem_singleton_self _⟩
    exact iff_of_false (fun active => elsewhere ⟨active.1, active.2.1⟩) fun active => elsewhere ⟨active.1, active.2.1⟩

theorem deleteMembers (tables : GuildTables) {selected : Member → Bool}
    (meant : ∀ row, selected row = true → audience row.guildID row.userID) :
    Changes tables (tables.deleteMembers selected) audience := by
  refine of_bump rfl id fun guild user other => .of_members (exists_updateRows fun row member hit => ?_)
  refine iff_of_false (by simp [Member.Active]) ?_
  rintro ⟨rfl, rfl, _⟩
  exact other ⟨meant row (Bool.and_elim_right hit), mem_map_of_mem (mem_filter.mpr ⟨member, hit⟩)⟩

theorem removeGuildMember (removed : tables.removeGuildMember guildID userID = .ok after) :
    Changes tables after (Only guildID userID) := by
  unfold GuildTables.removeGuildMember at removed
  split_ifs at removed
  cases removed
  exact deleteMembers tables fun _ hit => by simpa [Only] using hit

theorem deleteGuildMembers (tables : GuildTables) (guildID : ℤ) :
    Changes tables (tables.deleteGuildMembers guildID) (Everyone guildID) :=
  deleteMembers tables fun _ hit => by simpa [Everyone] using hit

end Members

section Roles

theorem createGuildRole {role : Role} (created : tables.createGuildRole role = .ok after) :
    Changes tables after (Everyone role.guildID) := by
  unfold GuildTables.createGuildRole at created
  split_ifs at created
  cases created
  refine of_bump rfl id fun guild user other => .of_roles fun grant => exists_append_singleton ?_
  rintro ⟨⟨rfl, _⟩, _⟩
  exact other ⟨rfl, mem_singleton_self _⟩

/-- Role ids are unique, so the updated row is one of the guild's. -/
theorem updateGuildRole {roleID : ℤ} {permissions : Option Permissions}
    (keys : (tables.roles.map Role.id).Nodup)
    (updated : tables.updateGuildRole guildID roleID permissions = .ok after) :
    Changes tables after (Everyone guildID) := by
  obtain ⟨role, loaded, rfl⟩ := Go.map_eq_ok.mp updated
  have look := found_eq_ok.mp loaded
  have same := find?_some look
  simp only [decide_eq_true_eq] at same
  refine of_bump rfl id fun guild user other => .of_roles fun grant => exists_updateRows fun held member hit => ?_
  obtain rfl := inj_on_of_nodup_map keys member (mem_of_find?_eq_some look) (of_decide_eq_true hit)
  have elsewhere : held.guildID ≠ guild := by
    rintro rfl
    exact other ⟨same.1, mem_singleton.mpr same.1⟩
  exact iff_of_false (fun held => elsewhere held.1.1) fun held => elsewhere held.1.1

theorem deleteRoles (tables : GuildTables) {selected : Role → Bool}
    (meant : ∀ row, selected row = true → row.guildID = guildID) :
    Changes tables (tables.deleteRoles selected) (Everyone guildID) := by
  refine of_bump rfl id fun guild user other => .of_roles fun grant => exists_updateRows fun row member hit => ?_
  refine iff_of_false (by simp [Role.Held]) ?_
  rintro ⟨⟨rfl, _⟩, _⟩
  exact other ⟨meant row (Bool.and_elim_right hit), mem_map_of_mem (mem_filter.mpr ⟨member, hit⟩)⟩

theorem deleteGuildRole {roleID : ℤ} (deleted : tables.deleteGuildRole guildID roleID = .ok after) :
    Changes tables after (Everyone guildID) := by
  unfold GuildTables.deleteGuildRole at deleted
  split at deleted
  · cases deleted
  · split_ifs at deleted
    cases deleted
    exact deleteRoles tables fun _ hit => (of_decide_eq_true hit).1

theorem addGuildMemberRole (tables : GuildTables) (assignment : MemberRole) :
    Changes tables (tables.addGuildMemberRole assignment) (Only assignment.guildID assignment.userID) := by
  unfold GuildTables.addGuildMemberRole
  split_ifs
  · exact refl tables _
  · refine of_bump rfl id fun guild user other => .of_memberRoles fun roleID => ?_
    have elsewhere : ⟨guild, user, roleID⟩ ≠ assignment := by
      rintro rfl
      exact other ⟨⟨rfl, rfl⟩, mem_singleton_self _⟩
    simp [elsewhere]

theorem deleteMemberRoles (tables : GuildTables) {selected : MemberRole → Bool}
    (meant : ∀ row, selected row = true → audience row.guildID row.userID) :
    Changes tables (tables.deleteMemberRoles selected) audience := by
  refine of_bump rfl id fun guild user other => .of_memberRoles fun roleID => mem_filter_not fun member => ?_
  refine Bool.eq_false_of_not_eq_true fun hit => other ⟨meant _ hit, ?_⟩
  exact mem_map.mpr ⟨_, mem_filter.mpr ⟨member, hit⟩, rfl⟩

theorem removeGuildMemberRole (tables : GuildTables) (assignment : MemberRole) :
    Changes tables (tables.removeGuildMemberRole assignment) (Only assignment.guildID assignment.userID) := by
  refine deleteMemberRoles tables fun row hit => ?_
  rw [of_decide_eq_true hit]
  exact ⟨rfl, rfl⟩

variable (tables guildID)

/-- Positions are no part of what a role grants. -/
theorem updateGuildRolePositions (positions : List (ℤ × ℕ)) (audience) :
    Changes tables (tables.updateGuildRolePositions guildID positions) audience :=
  of_sameRows rfl id fun _ _ => .of_roles fun _ => exists_updateRows fun _ _ _ => Iff.rfl

theorem deleteGuildRoles : Changes tables (tables.deleteGuildRoles guildID) (Everyone guildID) :=
  deleteRoles tables fun _ hit => of_decide_eq_true hit

theorem deleteGuildMemberRoleAssignments (userID : ℤ) :
    Changes tables (tables.deleteGuildMemberRoleAssignments guildID userID) (Only guildID userID) :=
  deleteMemberRoles tables fun _ hit => by simpa [Only] using hit

theorem deleteGuildRoleAssignments (roleID : ℤ) :
    Changes tables (tables.deleteGuildRoleAssignments guildID roleID) (Everyone guildID) :=
  deleteMemberRoles tables fun _ hit => (of_decide_eq_true hit).1

theorem deleteAllGuildRoleAssignments :
    Changes tables (tables.deleteAllGuildRoleAssignments guildID) (Everyone guildID) :=
  deleteMemberRoles tables fun _ hit => by simpa [Everyone] using hit

end Roles

section Channels

theorem createGuildChannel {channel : Channel} (created : tables.createGuildChannel channel = .ok after) :
    Changes tables after (Everyone channel.guildID) := by
  unfold GuildTables.createGuildChannel at created
  split_ifs at created
  cases created
  refine of_bump rfl id fun guild user other => .of_channels fun channelID => exists_append_singleton ?_
  rintro ⟨rfl, _⟩
  exact other ⟨rfl, mem_singleton_self _⟩

theorem deleteChannels {selected : Channel → Bool}
    (meant : ∀ row ∈ tables.channels, selected row = true → row.guildID = guildID) :
    Changes tables (tables.deleteChannels selected) (Everyone guildID) := by
  refine of_bump rfl id fun guild user other => .of_channels fun channelID => exists_updateRows fun row member hit => ?_
  refine iff_of_false (by simp [Channel.Live]) ?_
  rintro ⟨rfl, _⟩
  exact other ⟨meant row member (Bool.and_elim_right hit), mem_map_of_mem (mem_filter.mpr ⟨member, hit⟩)⟩

/-- Channel ids are unique, so only the channel's guild is concerned. -/
theorem deleteGuildChannel {channelID : ℤ} (unique : ∀ row ∈ tables.channels, row.id = channelID → row.guildID = guildID)
    (deleted : tables.deleteGuildChannel channelID = .ok after) : Changes tables after (Everyone guildID) := by
  obtain ⟨_, _, rfl⟩ := Go.map_eq_ok.mp deleted
  exact deleteChannels fun row member hit => unique row member (of_decide_eq_true hit)

variable (tables guildID)

theorem updateGuildChannelPositions (updates : List PositionUpdate) (audience) :
    Changes tables (tables.updateGuildChannelPositions guildID updates) audience :=
  of_sameRows rfl id fun _ _ => .of_channels fun _ => exists_updateRows fun row _ _ => by
    unfold place
    cases placement updates row.id <;> rfl

theorem clearGuildChannelParent (parentID : ℤ) (audience) :
    Changes tables (tables.clearGuildChannelParent guildID parentID) audience :=
  of_sameRows rfl id fun _ _ => .of_channels fun _ => exists_updateRows fun _ _ _ => Iff.rfl

theorem deleteGuildChannels : Changes tables (tables.deleteGuildChannels guildID) (Everyone guildID) :=
  deleteChannels fun _ _ hit => of_decide_eq_true hit

end Channels

section Overwrites

/-- Whose view an overwrite can change. -/
def Meant (appliesTo : AppliesTo) (guildID appliesToID : ℤ) : ℤ → ℤ → Prop := fun guild user =>
  guild = guildID ∧ (appliesTo = .member → user = appliesToID)

/-- Whoever an overwrite concerns is meant by it. -/
theorem meant_of_concerns {overwrite : Overwrite} {roles : List Role}
    (concerns : overwrite.Concerns overwrite.guildID roles userID) :
    Meant overwrite.appliesTo overwrite.guildID overwrite.appliesToID overwrite.guildID userID := by
  refine ⟨rfl, fun member => ?_⟩
  unfold Overwrite.Concerns at concerns
  rw [member] at concerns
  exact concerns.symm

theorem deleteOverwrites {selected : Overwrite → Bool} (meant : ∀ row ∈ tables.overwrites, selected row = true →
      ∀ guild user, Meant row.appliesTo row.guildID row.appliesToID guild user → audience guild user) :
    Changes tables (tables.deleteOverwrites selected) audience := by
  refine of_bump rfl ?_ fun guild user other => .of_overwrites fun overwrite here concerns => ?_
  · exact fun unique => unique.sublist (filter_sublist.map _)
  · refine mem_filter_not fun member => Bool.eq_false_of_not_eq_true fun hit => ?_
    subst here
    exact other ⟨meant overwrite member hit _ _ (meant_of_concerns concerns),
      mem_map_of_mem (mem_filter.mpr ⟨member, hit⟩)⟩

theorem deleteGuildChannelPermissionOverwrite {channelID appliesToID : ℤ} {appliesTo : AppliesTo}
    (unique : ∀ row ∈ tables.overwrites, row.channelID = channelID → row.guildID = guildID) :
    Changes tables (tables.deleteGuildChannelPermissionOverwrite channelID appliesTo appliesToID)
      (Meant appliesTo guildID appliesToID) := by
  refine deleteOverwrites fun row member hit guild user meant => ?_
  obtain ⟨channel, rfl, rfl⟩ := of_decide_eq_true hit
  rwa [unique row member channel] at meant

theorem deleteGuildChannelPermissionOverwrites {channelID : ℤ}
    (unique : ∀ row ∈ tables.overwrites, row.channelID = channelID → row.guildID = guildID) :
    Changes tables (tables.deleteGuildChannelPermissionOverwrites channelID) (Everyone guildID) :=
  deleteOverwrites fun row member hit _ _ meant => meant.1.trans (unique row member (of_decide_eq_true hit))

/-- An upsert leaves the overwrites with other targets. -/
theorem mem_upsert {overwrite other : Overwrite} (elsewhere : ¬ (other.channelID = overwrite.channelID ∧
      other.appliesTo = overwrite.appliesTo ∧ other.appliesToID = overwrite.appliesToID)) :
    other ∈ (tables.upsertGuildChannelPermissionOverwrite overwrite).overwrites ↔ other ∈ tables.overwrites := by
  have apart : other ≠ overwrite := by
    rintro rfl
    exact elsewhere ⟨rfl, rfl, rfl⟩
  simp only [upsertGuildChannelPermissionOverwrite, bumpAll]
  split_ifs
  · simp only [updateRows, List.mem_map]
    constructor
    · rintro ⟨row, member, moved⟩
      split_ifs at moved with hit
      · subst moved
        obtain ⟨channel, kind, target⟩ := of_decide_eq_true hit
        exact absurd ⟨channel.symm, kind.symm, target.symm⟩ elsewhere
      · rwa [← moved]
    · intro member
      refine ⟨other, member, if_neg fun hit => elsewhere ?_⟩
      obtain ⟨channel, kind, target⟩ := of_decide_eq_true hit
      exact ⟨channel.symm, kind.symm, target.symm⟩
  · simp [apart]

theorem uniqueTargets_upsert (overwrite : Overwrite) (unique : tables.UniqueTargets) :
    (tables.upsertGuildChannelPermissionOverwrite overwrite).UniqueTargets := by
  unfold UniqueTargets at unique ⊢
  simp only [upsertGuildChannelPermissionOverwrite, bumpAll]
  split_ifs with known
  · rw [map_updateRows]
    · exact unique
    · exact fun _ => rfl
  · rw [map_append, nodup_append]
    refine ⟨unique, nodup_singleton _, ?_⟩
    intro key listed key' new same
    obtain ⟨row, member, rfl⟩ := mem_map.mp listed
    cases mem_singleton.mp new
    refine known (any_eq_true.mpr ⟨row, member, decide_eq_true ?_⟩)
    simp only [Prod.mk.injEq] at same
    exact ⟨same.1.symm, same.2.1.symm, same.2.2.symm⟩

/-- Overwrites of a channel name the channel's guild. -/
theorem upsertGuildChannelPermissionOverwrite {overwrite : Overwrite}
    (same : ∀ row ∈ tables.overwrites, row.channelID = overwrite.channelID → row.guildID = overwrite.guildID) :
    Changes tables (tables.upsertGuildChannelPermissionOverwrite overwrite)
      (Meant overwrite.appliesTo overwrite.guildID overwrite.appliesToID) := by
  refine of_bump rfl (uniqueTargets_upsert overwrite) fun guild user other => .of_overwrites fun row here concerns => ?_
  by_cases target : row.channelID = overwrite.channelID ∧ row.appliesTo = overwrite.appliesTo ∧
      row.appliesToID = overwrite.appliesToID
  · subst here
    have meant := meant_of_concerns concerns
    rw [target.2.1, target.2.2] at meant
    have elsewhere : row.guildID ≠ overwrite.guildID := fun here =>
      other ⟨⟨here, meant.2⟩, List.mem_singleton.mpr here⟩
    refine iff_of_false ?_ fun member => elsewhere (same row member target.1)
    split_ifs with known
    · simp only [updateRows, List.mem_map, not_exists, not_and]
      rintro stored member moved
      split_ifs at moved with hit
      · subst moved
        exact elsewhere (same stored member (of_decide_eq_true hit).1.symm)
      · subst moved
        exact elsewhere (same stored member target.1)
    · intro member
      rcases List.mem_append.mp member with stored | new
      · exact elsewhere (same row stored target.1)
      · cases List.mem_singleton.mp new
        exact elsewhere rfl
  · exact mem_upsert target

variable (tables guildID)

theorem deleteGuildChannelPermissionOverwritesForAppliesTo (appliesTo : AppliesTo) (appliesToID : ℤ) :
    Changes tables (tables.deleteGuildChannelPermissionOverwritesForAppliesTo guildID appliesTo appliesToID)
      (Meant appliesTo guildID appliesToID) := by
  refine deleteOverwrites fun _ _ hit guild user meant => ?_
  obtain ⟨rfl, rfl, rfl⟩ := of_decide_eq_true hit
  exact meant

theorem deleteAllGuildChannelPermissionOverwrites :
    Changes tables (tables.deleteAllGuildChannelPermissionOverwrites guildID) (Everyone guildID) :=
  deleteOverwrites fun _ _ hit _ _ meant => meant.1.trans (of_decide_eq_true hit)

end Overwrites

section Guilds

/-- The changed rows of the guild raise its revision; the other guilds keep theirs. -/
theorem updateGuildRow (tables : GuildTables) (guildID : ℤ) (change : GuildRow → GuildRow)
    (keeps : ∀ row, (change row).id = row.id) :
    Changes tables (tables.updateGuildRow (fun row => row.id = guildID) change) (Everyone guildID) := by
  have ids : (tables.updateGuildRow (fun row => row.id = guildID) change).guilds.map GuildRow.id =
      tables.guilds.map GuildRow.id := by
    refine map_updateRows ?_ tables.guilds
    exact keeps
  have revisions (guild : ℤ) : (tables.updateGuildRow (fun row => row.id = guildID) change).revision guild =
      (tables.guilds.find? fun row => row.id = guild).elim 0 fun row =>
        if guild = guildID then row.accessRevision + 1 else row.accessRevision := by
    unfold GuildTables.revision GuildTables.updateGuildRow updateRows
    rw [find?_map_of_kept]
    · cases look : tables.guilds.find? fun row => row.id = guild with
      | none => rfl
      | some row =>
        have id : row.id = guild := by simpa using find?_some look
        simp only [Option.map_some, Option.elim, id, decide_eq_true_eq]
        split_ifs <;> rfl
    · intro row
      split_ifs
      · simp [keeps]
      · rfl
  refine ⟨ids, id, fun guild => ?_, fun keys guild user changed => ?_⟩
  · rw [revisions, GuildTables.revision]
    cases tables.guilds.find? fun row => row.id = guild with
    | none => exact le_rfl
    | some row =>
      simp only [Option.elim]
      split_ifs <;> omega
  · have here : guild = guildID := by
      by_contra elsewhere
      refine changed (SameRows.sameView ?_ keys keys)
      refine { SameRows.refl tables guild user with guild := ?_ }
      unfold GuildTables.getGuild GuildTables.updateGuildRow updateRows
      rw [find?_map_of_kept]
      · cases look : tables.guilds.find? fun row => row.id = guild ∧ row.deleted = false with
        | none => rfl
        | some row => simp [id_of_getGuild look, elsewhere]
      · intro row
        split_ifs with hit
        · simp [keeps, of_decide_eq_true hit, Ne.symm elsewhere]
        · rfl
    subst here
    refine ⟨rfl, ?_⟩
    rw [revisions, GuildTables.revision]
    cases look : tables.guilds.find? fun row => row.id = guild with
    | none =>
      refine absurd (SameView.of_no_row (fun row stored => ?_) ids) changed
      simpa using find?_eq_none.mp look row stored
    | some row => simp

theorem transferGuildOwnership {ownerID newOwnerID : ℤ}
    (transferred : tables.transferGuildOwnership guildID ownerID newOwnerID = .ok after) :
    Changes tables after (Everyone guildID) := by
  unfold GuildTables.transferGuildOwnership at transferred
  split at transferred
  · cases transferred
  · split_ifs at transferred
    cases transferred
    exact updateGuildRow tables guildID _ fun _ => rfl

theorem deleteGuild (deleted : tables.deleteGuild guildID = .ok after) : Changes tables after (Everyone guildID) := by
  obtain ⟨guild, loaded, rfl⟩ := Go.map_eq_ok.mp deleted
  rw [id_of_getGuild (found_eq_ok.mp loaded)]
  exact updateGuildRow tables guildID _ fun _ => rfl

/-- The layout revision is no part of a view. -/
theorem advanceGuildChannelLayoutRevision {expected : ℤ}
    (advanced : tables.advanceGuildChannelLayoutRevision guildID expected = .ok after) (audience) :
    Changes tables after audience := by
  unfold GuildTables.advanceGuildChannelLayoutRevision at advanced
  split at advanced
  · cases advanced
  · split_ifs at advanced
    cases advanced
    have kept {α : Type} (column : GuildRow → α) (same : ∀ row : GuildRow,
        column { row with channelLayoutRevision := row.channelLayoutRevision + 1 } = column row) (row : GuildRow) :
        column (if decide (row.id = guildID) = true then
          { row with channelLayoutRevision := row.channelLayoutRevision + 1 } else row) = column row := by
      split_ifs
      · exact same row
      · rfl
    have rows (guild user : ℤ) : SameRows tables { tables with
        guilds := updateRows tables.guilds (fun row => row.id = guildID)
          fun row => { row with channelLayoutRevision := row.channelLayoutRevision + 1 } } guild user := by
      refine { SameRows.refl tables guild user with guild := ?_ }
      unfold GuildTables.getGuild updateRows
      rw [find?_map_of_kept (kept _ fun _ => rfl), Option.map_map]
      congr 1
      funext row
      exact kept GuildRow.ownerID (fun _ => rfl) row
    refine ⟨?_, id, fun guild => le_of_eq ?_, fun keys guild user changed => absurd ((rows guild user).sameView keys keys) changed⟩
    · refine map_updateRows ?_ tables.guilds
      exact fun _ => rfl
    · unfold GuildTables.revision updateRows
      rw [find?_map_of_kept (kept _ fun _ => rfl)]
      cases tables.guilds.find? fun row => row.id = guild with
      | none => rfl
      | some row => exact (kept GuildRow.accessRevision (fun _ => rfl) row).symm

variable (tables guildID)

theorem upsertGuildBan (ban : Ban) (audience) : Changes tables (tables.upsertGuildBan ban) audience := by
  unfold GuildTables.upsertGuildBan
  split_ifs
  · exact refl tables audience
  · exact of_sameRows rfl id fun guild user => { SameRows.refl tables guild user with }

theorem deleteGuildBans (audience) : Changes tables (tables.deleteGuildBans guildID) audience :=
  of_sameRows rfl id fun guild user => { SameRows.refl tables guild user with }

theorem consumeGuildInvite (code : String) (audience) :
    Changes tables (tables.consumeGuildInvite code) audience :=
  of_sameRows rfl id fun guild user => { SameRows.refl tables guild user with }

theorem deleteGuildInvites (audience) : Changes tables (tables.deleteGuildInvites guildID) audience :=
  of_sameRows rfl id fun guild user => { SameRows.refl tables guild user with }

end Guilds

end Changes

end Cordis.Guild.GuildTables
