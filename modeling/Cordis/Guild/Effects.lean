import Cordis.Guild.Statements

/-! # What a statement changes of who sees what

What a user sees of a guild rests on few rows: the guild's row with its owner, the user's row as a
member, the roles the user holds, the guild's live channels, and the overwrites that concern the user.
`SameRows` says that these are the same in two states, and `Changes` that a statement raises the access
revision of every guild of which it changes what somebody sees, together with whom it may change it
for. The relation is transitive, so a transaction has the effects of its statements.
-/

namespace Cordis.Guild

open List

section Rows

variable {Row : Type} {rows : List Row} {selected : Row → Bool} {change : Row → Row} {P : Row → Prop}

/-- An update keeps a property of the table that the changed rows have before and after, or not at all. -/
theorem exists_updateRows (kept : ∀ row ∈ rows, selected row = true → (P (change row) ↔ P row)) :
    (∃ row ∈ GuildTables.updateRows rows selected change, P row) ↔ ∃ row ∈ rows, P row := by
  simp only [GuildTables.updateRows, List.mem_map, exists_exists_and_eq_and]
  refine exists_congr fun row => and_congr_right fun member => ?_
  split_ifs with hit
  · exact kept row member hit
  · rfl

theorem exists_append_singleton {row : Row} (fails : ¬ P row) :
    (∃ other ∈ rows ++ [row], P other) ↔ ∃ other ∈ rows, P other := by
  simp [or_and_right, exists_or, fails]

theorem mem_filter_not {row : Row} (kept : row ∈ rows → selected row = false) :
    (row ∈ rows.filter fun row => !selected row) ↔ row ∈ rows := by
  rw [mem_filter]
  exact and_iff_left_of_imp fun member => by rw [kept member]; rfl

theorem find?_map_of_kept {f : Row → Row} {p : Row → Bool} (kept : ∀ row, p (f row) = p row) :
    (rows.map f).find? p = (rows.find? p).map f := by
  rw [find?_map]
  congr 2
  funext row
  exact kept row

end Rows

def Member.Active (guildID userID : ℤ) (member : Member) : Prop :=
  member.guildID = guildID ∧ member.userID = userID ∧ member.deleted = false

def Role.Held (assignments : List MemberRole) (guildID userID : ℤ) (role : Role) : Prop :=
  role.guildID = guildID ∧ role.deleted = false ∧
    (role.isDefault = true ∨ ⟨guildID, userID, role.id⟩ ∈ assignments)

def Channel.Live (guildID channelID : ℤ) (channel : Channel) : Prop :=
  channel.guildID = guildID ∧ channel.deleted = false ∧ channel.id = channelID

namespace GuildTables

variable (tables after : GuildTables) (guildID userID : ℤ)

/-- The channels of the guild that the user can view, by the call that the session service asks. -/
def viewableChannels : List ℤ :=
  (tables.getUserGuildChannelVisibility guildID userID).toOption.elim [] ChannelVisibility.visibleChannelIDs

/-- The access revision in the guild's row, deleted or not. -/
def revision : ℕ :=
  (tables.guilds.find? fun guild => guild.id = guildID).elim 0 GuildRow.accessRevision

/-- The user sees the same channels of the guild. -/
def SameView : Prop :=
  ∀ channelID, channelID ∈ tables.viewableChannels guildID userID ↔ channelID ∈ after.viewableChannels guildID userID

/-- The primary key of the overwrites. -/
def UniqueTargets : Prop :=
  (tables.overwrites.map fun overwrite => (overwrite.channelID, overwrite.appliesTo, overwrite.appliesToID)).Nodup

/-- What the user's view of the guild rests on is the same. -/
structure SameRows (tables after : GuildTables) (guildID userID : ℤ) : Prop where
  guild : (after.getGuild guildID).map GuildRow.ownerID = (tables.getGuild guildID).map GuildRow.ownerID
  member : (∃ row ∈ after.members, row.Active guildID userID) ↔ ∃ row ∈ tables.members, row.Active guildID userID
  held : ∀ grant, (∃ role ∈ after.roles, role.Held after.memberRoles guildID userID ∧ role.grant = grant) ↔
    ∃ role ∈ tables.roles, role.Held tables.memberRoles guildID userID ∧ role.grant = grant
  channels : ∀ channelID, (∃ row ∈ after.channels, row.Live guildID channelID) ↔
    ∃ row ∈ tables.channels, row.Live guildID channelID
  overwrites : ∀ overwrite : Overwrite, overwrite.guildID = guildID →
    overwrite.Concerns guildID (tables.listGuildMemberRoles guildID userID) userID →
      (overwrite ∈ after.overwrites ↔ overwrite ∈ tables.overwrites)

variable {tables mid after : GuildTables} {guildID userID channelID : ℤ}

section View

theorem isMember_iff_active :
    tables.isMember guildID userID = true ↔ ∃ row ∈ tables.members, row.Active guildID userID := by
  simp [isMember, Member.Active]

theorem mem_listGuildMemberRoles_iff_held {role : Role} : role ∈ tables.listGuildMemberRoles guildID userID ↔
    role ∈ tables.roles ∧ role.Held tables.memberRoles guildID userID := by
  simp [listGuildMemberRoles, Role.Held]

theorem id_of_getGuild {guild : GuildRow} (loaded : tables.getGuild guildID = some guild) : guild.id = guildID := by
  have found := find?_some loaded
  simp only [decide_eq_true_eq] at found
  exact found.1

theorem getGuildForMember_eq_ite (tables : GuildTables) (guildID userID : ℤ) :
    tables.getGuildForMember guildID userID =
      if tables.isMember guildID userID then tables.getGuild guildID else none := by
  unfold getGuildForMember getGuild
  split_ifs with member
  · congr 1
    funext guild
    simp only [decide_eq_decide]
    refine ⟨fun ⟨id, live, _⟩ => ⟨id, live⟩, fun ⟨id, live⟩ => ⟨id, live, ?_⟩⟩
    rwa [id]
  · refine find?_eq_none.mpr fun guild _ => ?_
    simp only [decide_eq_true_eq]
    rintro ⟨rfl, _, active⟩
    exact member active

/-- The permissions by which the visibility call decides. -/
def snapshotPermissions (tables : GuildTables) (guild : GuildRow) (userID channelID : ℤ) : Permissions :=
  channelPermissions (memberAuthorityFromRoles guild (tables.listGuildMemberRoles guild.id userID) userID)
    (tables.listGuildMemberRoles guild.id userID)
    ((tables.listGuildChannelPermissionOverwritesByGuild guild.id).filter fun overwrite =>
      overwrite.channelID = channelID) userID

theorem mem_snapshotChannels_iff {guild : GuildRow} {channel : Channel} :
    channel ∈ tables.snapshotChannels guild userID ↔
      channel ∈ tables.listGuildChannels guild.id ∧
        sees (tables.snapshotPermissions guild userID channel.id) = true := by
  unfold snapshotChannels snapshotPermissions
  split_ifs with owner
  · rw [mem_visibleGuildChannels]
  · rw [mem_visibleGuildChannels, channelPermissions_owner (not_not.mp owner),
      channelPermissions_owner (not_not.mp owner)]

theorem mem_viewableChannels : channelID ∈ tables.viewableChannels guildID userID ↔
    0 < userID ∧ 0 < guildID ∧ (∃ row ∈ tables.members, row.Active guildID userID) ∧
      ∃ guild, tables.getGuild guildID = some guild ∧ (∃ row ∈ tables.channels, row.Live guildID channelID) ∧
        sees (tables.snapshotPermissions guild userID channelID) = true := by
  unfold viewableChannels getUserGuildChannelVisibility
  split_ifs with user guild
  · simp [Except.toOption, not_lt.mpr user]
  · simp [Except.toOption, not_lt.mpr guild]
  · rw [getGuildForMember_eq_ite, ← isMember_iff_active]
    split_ifs with member
    · cases loaded : tables.getGuild guildID with
      | none => simp [found, Except.map, Except.toOption]
      | some row =>
        have id := id_of_getGuild loaded
        simp only [found, Except.map, Except.toOption, Option.elim, mem_orderBy, List.mem_map, mem_snapshotChannels_iff,
          not_le.mp user, not_le.mp guild, member, true_and, Option.some.injEq, exists_eq_left']
        constructor
        · rintro ⟨channel, ⟨listed, seen⟩, rfl⟩
          simp only [listGuildChannels, id, mem_orderBy, List.mem_filter, decide_eq_true_eq] at listed
          exact ⟨⟨channel, listed.1, listed.2.1, listed.2.2, rfl⟩, seen⟩
        · rintro ⟨⟨channel, stored, here, live, rfl⟩, seen⟩
          refine ⟨channel, ⟨?_, seen⟩, rfl⟩
          simp only [listGuildChannels, id, mem_orderBy, List.mem_filter, decide_eq_true_eq]
          exact ⟨stored, here, live⟩
    · simp [found, Except.map, Except.toOption, member]

end View

namespace SameRows

theorem refl (tables : GuildTables) (guildID userID : ℤ) : SameRows tables tables guildID userID :=
  ⟨rfl, Iff.rfl, fun _ => Iff.rfl, fun _ => Iff.rfl, fun _ _ _ => Iff.rfl⟩

theorem sameGrants (rows : SameRows tables after guildID userID) :
    SameGrants (tables.listGuildMemberRoles guildID userID) (after.listGuildMemberRoles guildID userID) := by
  intro grant
  simp only [List.mem_map, mem_listGuildMemberRoles_iff_held, and_assoc]
  exact (rows.held grant).symm

theorem onePerTarget (unique : tables.UniqueTargets) (guildID channelID : ℤ) :
    OnePerTarget ((tables.listGuildChannelPermissionOverwritesByGuild guildID).filter fun overwrite =>
      overwrite.channelID = channelID) := by
  intro a first b second kind target
  simp only [listGuildChannelPermissionOverwritesByGuild, mem_filter, mem_orderBy, decide_eq_true_eq] at first second
  refine inj_on_of_nodup_map unique first.1.1 second.1.1 ?_
  rw [first.2, second.2, kind, target]

theorem snapshotPermissions_eq (rows : SameRows tables after guildID userID) (unique : tables.UniqueTargets)
    (unique' : after.UniqueTargets) {guild guild' : GuildRow} (id : guild.id = guildID) (id' : guild'.id = guildID)
    (owner : guild.ownerID = guild'.ownerID) (channelID : ℤ) :
    tables.snapshotPermissions guild userID channelID = after.snapshotPermissions guild' userID channelID := by
  unfold snapshotPermissions
  subst id
  rw [id']
  refine channelPermissions_congr id'.symm owner rows.sameGrants ?_ (onePerTarget unique _ _) (onePerTarget unique' _ _)
  intro overwrite concerns
  simp only [listGuildChannelPermissionOverwritesByGuild, mem_filter, mem_orderBy, decide_eq_true_eq]
  refine and_congr_left fun _ => and_congr_left fun here => ?_
  exact (rows.overwrites overwrite here concerns).symm

/-- The view follows the rows it rests on. -/
theorem sameView (rows : SameRows tables after guildID userID) (unique : tables.UniqueTargets)
    (unique' : after.UniqueTargets) : SameView tables after guildID userID := by
  intro channelID
  rw [mem_viewableChannels, mem_viewableChannels, rows.member, rows.channels]
  refine and_congr_right fun _ => and_congr_right fun _ => and_congr_right fun _ => ?_
  have owners := rows.guild
  cases loaded : tables.getGuild guildID with
  | none =>
    have none' : after.getGuild guildID = none := by simpa [loaded] using owners
    simp [none']
  | some guild =>
    obtain ⟨guild', loaded', owner⟩ : ∃ guild', after.getGuild guildID = some guild' ∧ guild'.ownerID = guild.ownerID := by
      simpa [loaded] using owners
    have permissions := rows.snapshotPermissions_eq unique unique' (id_of_getGuild loaded) (id_of_getGuild loaded')
      owner.symm channelID
    simp [loaded', permissions]

end SameRows

namespace SameView

theorem trans (first : SameView tables mid guildID userID) (second : SameView mid after guildID userID) :
    SameView tables after guildID userID :=
  fun channelID => (first channelID).trans (second channelID)

/-- Only a guild with a row is seen. -/
theorem of_no_row (none : ∀ guild ∈ tables.guilds, guild.id ≠ guildID)
    (ids : after.guilds.map GuildRow.id = tables.guilds.map GuildRow.id) : SameView tables after guildID userID := by
  have unseen (state : GuildTables) (same : state.guilds.map GuildRow.id = tables.guilds.map GuildRow.id) (channelID : ℤ) :
      channelID ∉ state.viewableChannels guildID userID := by
    intro seen
    rw [mem_viewableChannels] at seen
    obtain ⟨_, _, _, guild, loaded, _⟩ := seen
    have listed : guild.id ∈ tables.guilds.map GuildRow.id := by
      rw [← same]
      exact mem_map_of_mem (mem_of_find?_eq_some loaded)
    obtain ⟨row, stored, id⟩ := mem_map.mp listed
    exact none row stored (id.trans (id_of_getGuild loaded))
  intro channelID
  simp only [unseen tables rfl, unseen after ids]

end SameView

/-- The effects of a statement: the guilds keep their rows, revisions do not go down, and when the view of
some user of a guild changes, the user is in the audience and the revision of the guild goes up. -/
structure Changes (tables after : GuildTables) (audience : ℤ → ℤ → Prop) : Prop where
  ids : after.guilds.map GuildRow.id = tables.guilds.map GuildRow.id
  unique : tables.UniqueTargets → after.UniqueTargets
  revision : ∀ guildID, tables.revision guildID ≤ after.revision guildID
  covered : tables.UniqueTargets → ∀ guildID userID, ¬ SameView tables after guildID userID →
    audience guildID userID ∧ tables.revision guildID < after.revision guildID

namespace Changes

variable {audience audience' : ℤ → ℤ → Prop}

theorem refl (tables : GuildTables) (audience : ℤ → ℤ → Prop) : Changes tables tables audience :=
  ⟨rfl, id, fun _ => le_rfl, fun _ _ _ changed => absurd (fun _ => Iff.rfl) changed⟩

theorem trans (first : Changes tables mid audience) (second : Changes mid after audience) :
    Changes tables after audience where
  ids := second.ids.trans first.ids
  unique := fun unique => second.unique (first.unique unique)
  revision := fun guildID => (first.revision guildID).trans (second.revision guildID)
  covered := by
    intro unique guildID userID changed
    by_cases same : SameView tables mid guildID userID
    · have later : ¬ SameView mid after guildID userID := fun same' => changed (same.trans same')
      obtain ⟨meant, raised⟩ := second.covered (first.unique unique) guildID userID later
      exact ⟨meant, (first.revision guildID).trans_lt raised⟩
    · obtain ⟨meant, raised⟩ := first.covered unique guildID userID same
      exact ⟨meant, raised.trans_le (second.revision guildID)⟩

theorem mono (changes : Changes tables after audience)
    (weaker : ∀ guildID userID, audience guildID userID → audience' guildID userID) :
    Changes tables after audience' :=
  { changes with
    covered := fun unique guildID userID changed =>
      (changes.covered unique guildID userID changed).imp_left (weaker guildID userID) }

/-- A statement after which everybody's view rests on the same rows. -/
theorem of_sameRows (guilds : after.guilds = tables.guilds) (unique : tables.UniqueTargets → after.UniqueTargets)
    (rows : ∀ guildID userID, SameRows tables after guildID userID) : Changes tables after audience where
  ids := by rw [guilds]
  unique := unique
  revision := fun guildID => by rw [GuildTables.revision, GuildTables.revision, guilds]
  covered := fun keys guildID userID changed =>
    absurd ((rows guildID userID).sameView keys (unique keys)) changed

end Changes

section Bump

variable (tables)

@[simp] theorem map_id_bumpAll (guildIDs : List ℤ) :
    (tables.bumpAll guildIDs).guilds.map GuildRow.id = tables.guilds.map GuildRow.id := by
  simp [bumpAll]

theorem getGuild_bumpAll (guildIDs : List ℤ) (guildID : ℤ) :
    (tables.bumpAll guildIDs).getGuild guildID = (tables.getGuild guildID).map fun guild =>
      { guild with accessRevision := guild.accessRevision + guildIDs.count guild.id } :=
  find?_map_of_kept fun _ => rfl

theorem revision_bumpAll (guildIDs : List ℤ) (guildID : ℤ) : (tables.bumpAll guildIDs).revision guildID =
      (tables.guilds.find? fun guild => guild.id = guildID).elim 0 fun guild =>
        guild.accessRevision + guildIDs.count guildID := by
  have moved : (tables.bumpAll guildIDs).guilds.find? (fun guild => guild.id = guildID) =
      (tables.guilds.find? fun guild => guild.id = guildID).map fun guild =>
        { guild with accessRevision := guild.accessRevision + guildIDs.count guild.id } :=
    find?_map_of_kept fun _ => rfl
  unfold revision
  rw [moved]
  cases found : tables.guilds.find? fun guild => guild.id = guildID with
  | none => rfl
  | some guild =>
    have id : guild.id = guildID := by simpa using find?_some found
    simp [id]

theorem le_revision_bumpAll (guildIDs : List ℤ) (guildID : ℤ) :
    tables.revision guildID ≤ (tables.bumpAll guildIDs).revision guildID := by
  rw [revision_bumpAll, revision]
  cases tables.guilds.find? fun guild => guild.id = guildID with
  | none => exact le_rfl
  | some guild => exact Nat.le_add_right ..

variable {tables} {guildIDs : List ℤ}

theorem lt_revision_bumpAll (bumped : guildID ∈ guildIDs)
    {guild : GuildRow} (stored : guild ∈ tables.guilds) (id : guild.id = guildID) :
    tables.revision guildID < (tables.bumpAll guildIDs).revision guildID := by
  have count := count_pos_iff.mpr bumped
  rw [revision_bumpAll, revision]
  cases found : tables.guilds.find? fun guild => guild.id = guildID with
  | none => simpa [id] using find?_eq_none.mp found guild stored
  | some row =>
    simp only [Option.elim]
    omega

/-- The triggers change nothing that a view rests on. -/
theorem SameRows.bumpAll (rows : SameRows tables mid guildID userID) (guildIDs : List ℤ) :
    SameRows tables (mid.bumpAll guildIDs) guildID userID :=
  { rows with
    guild := by
      rw [getGuild_bumpAll, Option.map_map, ← rows.guild]
      rfl }

/-- A statement whose triggers raise the revisions of the guilds in which it changes what views rest on. -/
theorem Changes.of_bump {audience : ℤ → ℤ → Prop} (guilds : mid.guilds = tables.guilds)
    (unique : tables.UniqueTargets → mid.UniqueTargets)
    (rows : ∀ guildID userID, ¬ (audience guildID userID ∧ guildID ∈ guildIDs) → SameRows tables mid guildID userID) :
    Changes tables (mid.bumpAll guildIDs) audience where
  ids := by rw [map_id_bumpAll, guilds]
  unique := unique
  revision := by
    intro guildID
    rw [GuildTables.revision, ← guilds]
    exact le_revision_bumpAll mid guildIDs guildID
  covered := by
    intro keys guildID userID changed
    have meant : audience guildID userID ∧ guildID ∈ guildIDs := by
      by_contra other
      exact changed (((rows guildID userID other).bumpAll guildIDs).sameView keys (unique keys))
    refine ⟨meant.1, ?_⟩
    obtain ⟨guild, stored, id⟩ : ∃ guild ∈ tables.guilds, guild.id = guildID := by
      by_contra none
      push Not at none
      exact changed (SameView.of_no_row none (by rw [map_id_bumpAll, guilds]))
    rw [← guilds] at stored
    have raised := lt_revision_bumpAll meant.2 stored id
    rwa [GuildTables.revision, guilds] at raised

end Bump

end GuildTables

end Cordis.Guild
