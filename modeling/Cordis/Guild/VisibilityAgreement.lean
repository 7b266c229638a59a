import Cordis.Guild.Visibility

/-! # All paths agree on the channels a member sees

The queries behind the five calls agree on the roles a member holds and on the overwrites that concern
the member, and this is all the permissions depend on.
-/

namespace Cordis.Guild

open List

/-- The roles are those the member holds; the owner's do not matter. -/
def GuildTables.Holds (tables : GuildTables) (guild : GuildRow) (userID : ℤ) (roles : List Role) : Prop :=
  guild.ownerID ≠ userID → ∀ role, role ∈ roles ↔ role ∈ tables.listGuildMemberRoles guild.id userID

namespace GuildTables.WellFormed

variable {limits : GuildLimits} {tables : GuildTables} (wf : tables.WellFormed limits) {guild : GuildRow} {userID : ℤ}

include wf

theorem guild_eq {other : GuildRow} (first : guild ∈ tables.guilds) (second : other ∈ tables.guilds)
    (same : guild.id = other.id) : guild = other :=
  inj_on_of_nodup_map wf.guilds first second same

variable {role : Role} {channel : Channel} {overwrites : List Overwrite} {guildID : ℤ} {roles : List Role}

theorem role_eq {other : Role} (first : role ∈ tables.roles) (second : other ∈ tables.roles)
    (same : role.id = other.id) : role = other :=
  inj_on_of_nodup_map wf.roles first second same

theorem channel_eq {other : Channel} (first : channel ∈ tables.channels) (second : other ∈ tables.channels)
    (same : channel.id = other.id) : channel = other :=
  inj_on_of_nodup_map wf.channels first second same

theorem getGuildChannel_eq (stored : channel ∈ tables.channels) (live : channel.deleted = false) :
    tables.getGuildChannel channel.id = some channel := by
  refine find?_of_only stored (by simp [live]) fun other listed same => ?_
  exact wf.channel_eq listed stored (of_decide_eq_true same).1

variable {channelID : ℤ}

/-- The overwrites of one channel, whichever query has found them. -/
theorem onePerTarget
    (listed : ∀ overwrite ∈ overwrites, overwrite ∈ tables.overwrites ∧ overwrite.channelID = channelID) :
    OnePerTarget overwrites := by
  intro a first b second kind target
  obtain ⟨stored, here⟩ := listed a first
  obtain ⟨stored', here'⟩ := listed b second
  refine inj_on_of_nodup_map wf.overwrites stored stored' ?_
  simp only [Prod.mk.injEq]
  exact ⟨here.trans here'.symm, kind, target⟩

omit wf in
theorem mem_listGuildMemberRoles : role ∈ tables.listGuildMemberRoles guildID userID ↔
    role ∈ tables.roles ∧ role.guildID = guildID ∧ role.deleted = false ∧
      (role.isDefault = true ∨ ⟨guildID, userID, role.id⟩ ∈ tables.memberRoles) := by
  simp [listGuildMemberRoles]

/-- An assignment to a role of a guild is one in that guild, so loading several guilds finds the same
roles. -/
theorem mem_memberRolesByGuilds {guildIDs : List ℤ} (listed : guildID ∈ guildIDs) (role : Role) :
    role ∈ (tables.listGuildMemberRolesByGuilds guildIDs userID).filter (fun role => role.guildID = guildID) ↔
      role ∈ tables.listGuildMemberRoles guildID userID := by
  rw [mem_listGuildMemberRoles]
  simp only [listGuildMemberRolesByGuilds, mem_filter, mem_orderBy, decide_eq_true_eq]
  constructor
  · rintro ⟨⟨stored, _, live, isDefault | ⟨assignment, assigned, _, rfl, id⟩⟩, rfl⟩
    · exact ⟨stored, rfl, live, .inl isDefault⟩
    · obtain ⟨other, stored', id', same⟩ := wf.assigned assignment assigned
      obtain rfl := wf.role_eq stored stored' (id.symm.trans id'.symm)
      refine ⟨stored, rfl, live, .inr ?_⟩
      rw [same, ← id]
      exact assigned
  · rintro ⟨stored, rfl, live, isDefault | assigned⟩
    · exact ⟨⟨stored, listed, live, .inl isDefault⟩, rfl⟩
    · exact ⟨⟨stored, listed, live, .inr ⟨_, assigned, listed, rfl, rfl⟩⟩, rfl⟩

omit wf in
theorem isMember_iff : tables.isMember guildID userID = true ↔
    ∃ row ∈ tables.members, row.guildID = guildID ∧ row.userID = userID ∧ row.deleted = false := by
  simp [isMember]

theorem userID_pos (member : tables.isMember guildID userID = true) : 0 < userID := by
  obtain ⟨row, active, _, rfl, _⟩ := isMember_iff.mp member
  exact wf.userID row active

omit wf in
theorem mem_listGuildMemberRolesByUsers {userIDs : List ℤ} :
    (userID, role) ∈ tables.listGuildMemberRolesByUsers guildID userIDs ↔
      (role ∈ tables.roles ∧ role.guildID = guildID ∧ role.deleted = false) ∧ userID ∈ userIDs ∧
        (⟨guildID, userID, role.id⟩ ∈ tables.memberRoles ∨
          tables.isMember guildID userID = true ∧ role.id = guildID) := by
  unfold listGuildMemberRolesByUsers
  simp only [mem_flatMap, mem_append, mem_map, mem_filter, decide_eq_true_eq, Prod.exists,
    isMember_iff]
  constructor
  · rintro ⟨_, _, given, _, ⟨stored, guild, id, live⟩, pair⟩
    cases pair
    refine ⟨⟨stored, guild, live⟩, ?_⟩
    rcases given with ⟨assignment, ⟨assigned, same, asked⟩, pair⟩ | ⟨row, ⟨active, same, asked, alive⟩, pair⟩
    · cases pair
      exact ⟨asked, .inl (by rwa [← same, id])⟩
    · cases pair
      exact ⟨asked, .inr ⟨⟨row, active, same, rfl, alive⟩, id⟩⟩
  · rintro ⟨⟨stored, guild, live⟩, asked, assigned | ⟨⟨row, active, same, rfl, alive⟩, id⟩⟩
    · exact ⟨userID, role.id, .inl ⟨_, ⟨assigned, rfl, asked⟩, rfl⟩, role, ⟨stored, guild, rfl, live⟩, rfl⟩
    · exact ⟨row.userID, guildID, .inr ⟨row, ⟨active, same, asked, alive⟩, rfl⟩, role, ⟨stored, guild, id, live⟩, rfl⟩

/-- A listing of roles and overwrites that has the roles the member holds, and of the channel's
overwrites those that concern the member, gives the member's permissions. The owner's need no roles. -/
theorem channelPermissions_eq (held : tables.Holds guild userID roles)
    (listed : ∀ overwrite ∈ overwrites, overwrite ∈ tables.overwrites ∧ overwrite.channelID = channelID)
    (complete : ∀ overwrite ∈ tables.overwrites, overwrite.channelID = channelID →
      overwrite.Concerns guild.id roles userID → overwrite ∈ overwrites) :
    channelPermissions (memberAuthorityFromRoles guild roles userID) roles overwrites userID =
      tables.effectivePermissions guild userID channelID := by
  by_cases owner : guild.ownerID = userID
  · rw [effectivePermissions, channelPermissions_owner owner, channelPermissions_owner owner]
  refine channelPermissions_congr rfl rfl (.of_mem_iff (held owner))
    (fun overwrite concerns => ⟨fun member => ?_, fun member => ?_⟩) (wf.onePerTarget listed) (wf.onePerTarget fun overwrite member => by simpa using member)
  · simpa using listed overwrite member
  · obtain ⟨stored, here⟩ : overwrite ∈ tables.overwrites ∧ overwrite.channelID = channelID := by simpa using member
    exact complete overwrite stored here concerns

/-- A listing in any order of the channel's overwrites. -/
theorem channelPermissions_perm (held : tables.Holds guild userID roles)
    (someOverwrites : overwrites.Perm (tables.listGuildChannelPermissionOverwrites channelID)) :
    channelPermissions (memberAuthorityFromRoles guild roles userID) roles overwrites userID =
      tables.effectivePermissions guild userID channelID := by
  refine wf.channelPermissions_eq held (fun overwrite listed => ?_) fun overwrite found at_ _ => ?_
  · simpa [listGuildChannelPermissionOverwrites] using someOverwrites.mem_iff.mp listed
  · simp [someOverwrites.mem_iff, listGuildChannelPermissionOverwrites, found, at_]

/-- An overwrite of a channel belongs to the channel's guild. -/
theorem overwrite_guildID {overwrite : Overwrite} (stored : channel ∈ tables.channels)
    (member : overwrite ∈ tables.overwrites) (here : overwrite.channelID = channel.id) :
    overwrite.guildID = channel.guildID := by
  obtain ⟨other, stored', id, same⟩ := wf.overwritten overwrite member
  rw [wf.channel_eq stored stored' (here.symm.trans id.symm), same]

section Loading

variable (stored : guild ∈ tables.guilds) (live : guild.deleted = false)

include stored live

theorem getGuildForMember_eq (member : tables.isMember guild.id userID = true) :
    tables.getGuildForMember guild.id userID = some guild := by
  refine find?_of_only stored (by simp [live, member]) fun other listed same => ?_
  exact wf.guild_eq listed stored (of_decide_eq_true same).1

theorem getGuild_eq : tables.getGuild guild.id = some guild := by
  refine find?_of_only stored (by simp [live]) fun other listed same => ?_
  exact wf.guild_eq listed stored (of_decide_eq_true same).1

theorem mem_rolesByUser (member : tables.isMember guild.id userID = true) {userIDs : List ℤ}
    (asked : userID ∈ userIDs) (role : Role) :
    role ∈ tables.rolesByUser guild.id userIDs userID ↔ role ∈ tables.listGuildMemberRoles guild.id userID := by
  have row : role ∈ tables.rolesByUser guild.id userIDs userID ↔
      (userID, role) ∈ tables.listGuildMemberRolesByUsers guild.id userIDs := by
    simp [rolesByUser]
  rw [row, mem_listGuildMemberRolesByUsers, mem_listGuildMemberRoles]
  constructor
  · rintro ⟨⟨known, same, present⟩, _, assigned | ⟨_, id⟩⟩
    · exact ⟨known, same, present, .inr assigned⟩
    · -- the role with the id of the guild is the default role
      obtain ⟨other, found, own, _, isDefault, _⟩ := wf.default guild stored live
      cases wf.role_eq known found (id.trans own.symm)
      exact ⟨known, same, present, .inl isDefault⟩
  · rintro ⟨known, same, present, isDefault | assigned⟩
    · exact ⟨⟨known, same, present⟩, asked, .inr ⟨member, (wf.defaultID role known isDefault).trans same⟩⟩
    · exact ⟨⟨known, same, present⟩, asked, .inl assigned⟩

/-- What loading a member's authority gives: the roles of anyone but the owner. -/
theorem loadMemberAuthorityAndRoles_eq (member : tables.isMember guild.id userID = true) :
    ∃ roles, tables.loadMemberAuthorityAndRoles guild.id userID =
        .ok (memberAuthorityFromRoles guild roles userID, roles) ∧
      tables.Holds guild userID roles := by
  unfold loadMemberAuthorityAndRoles
  rw [wf.getGuildForMember_eq stored live member]
  by_cases owner : guild.ownerID = userID
  · refine ⟨[], ?_, absurd owner⟩
    simp [found, Except.map, owner]
  · refine ⟨_, ?_, fun _ _ => Iff.rfl⟩
    simp [found, Except.map, owner]

end Loading

section Paths

variable {channel : Channel} (stored : guild ∈ tables.guilds) (live : guild.deleted = false)
  (member : tables.isMember guild.id userID = true) (known : channel ∈ tables.channels)
  (present : channel.deleted = false) (here : channel.guildID = guild.id)

include known here

/-- All overwrites of the guild, read for one of its channels. -/
theorem channelPermissions_byGuild {roles : List Role} (held : tables.Holds guild userID roles) :
    channelPermissions (memberAuthorityFromRoles guild roles userID) roles
      ((tables.listGuildChannelPermissionOverwritesByGuild guild.id).filter fun overwrite =>
        overwrite.channelID = channel.id) userID = tables.effectivePermissions guild userID channel.id := by
  refine wf.channelPermissions_eq held (fun overwrite listed => ?_) fun overwrite found at_ _ => ?_
  · simp only [listGuildChannelPermissionOverwritesByGuild, mem_filter, mem_orderBy, decide_eq_true_eq] at listed
    exact ⟨listed.1.1, listed.2⟩
  · have guildID := (wf.overwrite_guildID known found at_).trans here
    simp [listGuildChannelPermissionOverwritesByGuild, found, at_, guildID]

include present

omit wf in
theorem mem_listGuildChannels : channel ∈ tables.listGuildChannels guild.id := by
  simp [listGuildChannels, known, present, here]

theorem mem_snapshotChannels : channel ∈ tables.snapshotChannels guild userID ↔
    sees (tables.effectivePermissions guild userID channel.id) = true := by
  have listed := mem_listGuildChannels known present here
  unfold snapshotChannels
  split_ifs with owner
  · rw [mem_visibleGuildChannels, wf.channelPermissions_byGuild known here fun _ _ => Iff.rfl]
    simp [listed]
  · have owner := not_not.mp owner
    rw [mem_visibleGuildChannels, channelPermissions_owner owner, effectivePermissions, channelPermissions_owner owner]
    simp [listed]

include stored live

theorem mem_readyChannels {guildIDs : List ℤ} (listed : guild.id ∈ guildIDs) :
    channel ∈ tables.readyChannels guildIDs guild userID ↔
      sees (tables.effectivePermissions guild userID channel.id) = true := by
  have loaded := wf.getGuild_eq stored live
  have shown : channel ∈ (tables.listGuildChannelsWithRevisionsByGuilds guildIDs).1.filter fun channel =>
      channel.guildID = guild.id := by
    simp [listGuildChannelsWithRevisionsByGuilds, known, present, here, listed, loaded]
  unfold readyChannels
  rw [mem_orderBy, mem_visibleGuildChannels, and_iff_right shown, Bool.coe_iff_coe]
  refine congrArg sees (wf.channelPermissions_eq (fun _ => wf.mem_memberRolesByGuilds listed) ?_ ?_)
  · intro overwrite found
    simp only [listGuildChannelPermissionOverwritesByGuilds, mem_filter, mem_orderBy, decide_eq_true_eq] at found
    exact ⟨found.1.1.1, found.2⟩
  · -- An overwrite that concerns the member passes the filter of the query.
    intro overwrite found at_ concerns
    have guildID := (wf.overwrite_guildID known found at_).trans here
    simp only [listGuildChannelPermissionOverwritesByGuilds, mem_filter, mem_orderBy, decide_eq_true_eq]
    refine ⟨⟨⟨found, guildID ▸ listed, ?_⟩, guildID⟩, at_⟩
    unfold Overwrite.Concerns at concerns
    split at concerns
    · next kind =>
      refine .inr ⟨kind, ?_⟩
      rw [guildID]
      rcases concerns with everyone | ⟨role, holder, id⟩
      · exact .inl everyone
      · obtain ⟨row, same, _, isDefault | assigned⟩ :=
          mem_listGuildMemberRoles.mp ((wf.mem_memberRolesByGuilds listed role).mp holder)
        · exact .inl (id.symm.trans ((wf.defaultID role row isDefault).trans same))
        · exact .inr (id ▸ assigned)
    · next kind => exact .inl ⟨kind, concerns⟩

include member

theorem mem_loadVisibleGuildChannels : ∃ channels layoutRevision,
    tables.loadVisibleGuildChannels guild.id userID = .ok (channels, layoutRevision) ∧
      (channel ∈ channels ↔ sees (tables.effectivePermissions guild userID channel.id) = true) := by
  have listed := mem_listGuildChannels known present here
  obtain ⟨roles, loaded, held⟩ := wf.loadMemberAuthorityAndRoles_eq stored live member
  have permissions := wf.channelPermissions_byGuild known here held
  have revision : tables.listGuildChannelsWithRevision guild.id =
      some (tables.listGuildChannels guild.id, guild.channelLayoutRevision) := by
    simp [listGuildChannelsWithRevision, wf.getGuild_eq stored live]
  cases free : (memberAuthorityFromRoles guild roles userID).unrestricted with
  | true =>
    refine ⟨_, guild.channelLayoutRevision, by simp [loadVisibleGuildChannels, loaded, revision, found, free, Go.ok_bind]; rfl, ?_⟩
    rw [← permissions, channelPermissions_unrestricted free]
    simp [listed, sees_all]
  | false =>
    refine ⟨_, guild.channelLayoutRevision, by simp [loadVisibleGuildChannels, loaded, revision, found, free, Go.ok_bind]; rfl, ?_⟩
    rw [mem_visibleGuildChannels, permissions]
    simp [listed]

theorem loadAuthorizedChannel_eq : ∃ permissions,
    tables.loadAuthorizedChannel channel.id userID = .ok (channel, permissions) ∧
      sees permissions = sees (tables.effectivePermissions guild userID channel.id) := by
  obtain ⟨roles, loaded, held⟩ := wf.loadMemberAuthorityAndRoles_eq stored live member
  have permissions := wf.channelPermissions_perm held (.refl (tables.listGuildChannelPermissionOverwrites channel.id))
  have fetched := wf.getGuildChannel_eq known present
  cases free : (memberAuthorityFromRoles guild roles userID).unrestricted with
  | true =>
    refine ⟨allGuildPermissions, by simp [loadAuthorizedChannel, fetched, found, here, loaded, free, Go.ok_bind]; rfl, ?_⟩
    rw [← permissions, channelPermissions_unrestricted free]
  | false =>
    exact ⟨_, by simp [loadAuthorizedChannel, fetched, found, here, loaded, free, Go.ok_bind]; rfl, by rw [permissions]⟩

theorem getUserReadyState_agrees : ∃ ready, tables.getUserReadyState limits userID = .ok ready ∧
    ((∃ entry ∈ ready, entry.guild = guild ∧ channel ∈ entry.channels) ↔
      sees (tables.effectivePermissions guild userID channel.id) = true) := by
  -- nobody is in more guilds than READY lists
  have listed : guild ∈ tables.listUserGuilds userID 0 limits.joinedGuilds := by
    unfold listUserGuilds
    rw [take_of_length_le]
    · simp [guildsOf, stored, live, member]
    · simpa using wf.joined userID
  refine ⟨_, if_neg (not_le.mpr (wf.userID_pos member)), ?_⟩
  rw [← wf.mem_readyChannels stored live known present here (mem_map_of_mem listed)]
  simp only [withOverwrites, mem_map]
  constructor
  · rintro ⟨_, ⟨_, ⟨other, _, rfl⟩, rfl⟩, rfl, shown⟩
    exact shown
  · intro shown
    exact ⟨_, ⟨_, ⟨guild, listed, rfl⟩, rfl⟩, rfl, shown⟩

theorem getUserGuildChannelVisibility_agrees :
    ∃ visibility, tables.getUserGuildChannelVisibility guild.id userID = .ok visibility ∧
      (channel.id ∈ visibility.visibleChannelIDs ↔
        sees (tables.effectivePermissions guild userID channel.id) = true) := by
  have user := not_le.mpr (wf.userID_pos member)
  have positive := not_le.mpr (wf.guildID guild stored)
  have fetched := wf.getGuildForMember_eq stored live member
  refine ⟨_, by simp only [getUserGuildChannelVisibility, user, positive, ↓reduceIte, fetched, found]; rfl, ?_⟩
  rw [mem_orderBy, ← wf.mem_snapshotChannels known present here]
  constructor
  · intro shown
    obtain ⟨other, visible, id⟩ := mem_map.mp shown
    have row : other ∈ tables.channels := by
      have loaded : other ∈ tables.listGuildChannels guild.id := by
        unfold snapshotChannels at visible
        split_ifs at visible <;> exact (mem_visibleGuildChannels.mp visible).1
      simp only [listGuildChannels, mem_orderBy, mem_filter] at loaded
      exact loaded.1
    rwa [wf.channel_eq known row id.symm]
  · exact mem_map_of_mem

theorem listVisibleGuildChannels_agrees :
    ∃ listed, tables.listVisibleGuildChannels guild.id userID = .ok listed ∧
      (channel ∈ listed.1 ↔ sees (tables.effectivePermissions guild userID channel.id) = true) := by
  have user := not_le.mpr (wf.userID_pos member)
  have positive := not_le.mpr (wf.guildID guild stored)
  obtain ⟨channels, layoutRevision, listed, agrees⟩ :=
    wf.mem_loadVisibleGuildChannels stored live member known present here
  refine ⟨(channels, layoutRevision), ?_, agrees⟩
  simpa only [listVisibleGuildChannels, user, positive, ↓reduceIte] using listed

theorem authorizeGuildChannel_agrees :
    ∃ authorization, tables.authorizeGuildChannel channel.id userID permissionViewChannel = .ok authorization ∧
      authorization.allowed = sees (tables.effectivePermissions guild userID channel.id) := by
  have user := not_le.mpr (wf.userID_pos member)
  have positive := not_le.mpr (wf.channelID channel known)
  have some : permissionViewChannel ≠ 0 := by decide
  have bits : permissionViewChannel &&& ~~~allChannelPermissions = 0 := by decide
  obtain ⟨permissions, authorized, same⟩ := wf.loadAuthorizedChannel_eq stored live member known present here
  refine ⟨⟨channel.guildID, permissions, decide (permissions &&& permissionViewChannel = permissionViewChannel),
    channel.type⟩, ?_, ?_⟩
  · simp only [authorizeGuildChannel, user, positive, or_self, ↓reduceIte, some, bits, ne_eq, not_true_eq_false,
      authorized, Except.map]
  · have bit : permissionViewChannel = BitVec.twoPow 64 5 := by decide
    rw [← same, sees, decide_eq_decide, bit]
    exact and_twoPow_eq_self (by decide)

omit known present here in
theorem canViewMentionChannel_agrees {userIDs : List ℤ} (asked : userID ∈ userIDs) :
    canViewMentionChannel guild (tables.listGuildChannelPermissionOverwrites channel.id)
      (tables.rolesByUser guild.id userIDs userID) userID =
        sees (tables.effectivePermissions guild userID channel.id) := by
  rw [canViewMentionChannel_eq]
  exact congrArg sees (wf.channelPermissions_perm (fun _ => wf.mem_rolesByUser stored live member asked) (.refl _))

end Paths

end GuildTables.WellFormed

/-- For an active member of a live guild and a live channel of it, READY, the visibility snapshot, the
list of channels, the authorization to view and the choice for a mention all give the same answer, and
so do the roles and overwrites in any other order. -/
theorem channel_visibility_agreement {limits : GuildLimits} {tables : GuildTables} (wf : tables.WellFormed limits)
    {guild : GuildRow} (stored : guild ∈ tables.guilds) (live : guild.deleted = false) {userID : ℤ}
    (member : tables.isMember guild.id userID = true) {channel : Channel} (known : channel ∈ tables.channels)
    (present : channel.deleted = false) (here : channel.guildID = guild.id) :
    ∃ ready visibility listed authorization,
      tables.getUserReadyState limits userID = .ok ready ∧
      tables.getUserGuildChannelVisibility guild.id userID = .ok visibility ∧
      tables.listVisibleGuildChannels guild.id userID = .ok listed ∧
      tables.authorizeGuildChannel channel.id userID permissionViewChannel = .ok authorization ∧
      ((∃ entry ∈ ready, entry.guild = guild ∧ channel ∈ entry.channels) ↔ authorization.allowed = true) ∧
      (channel.id ∈ visibility.visibleChannelIDs ↔ authorization.allowed = true) ∧
      (channel ∈ listed.1 ↔ authorization.allowed = true) ∧
      (∀ userIDs, userID ∈ userIDs →
        canViewMentionChannel guild (tables.listGuildChannelPermissionOverwrites channel.id)
          (tables.rolesByUser guild.id userIDs userID) userID = authorization.allowed) ∧
      ∀ roles overwrites, roles.Perm (tables.listGuildMemberRoles guild.id userID) →
        overwrites.Perm (tables.listGuildChannelPermissionOverwrites channel.id) →
        sees (channelPermissions (memberAuthorityFromRoles guild roles userID) roles overwrites userID) =
          authorization.allowed := by
  obtain ⟨ready, readied, inReady⟩ := wf.getUserReadyState_agrees stored live member known present here
  obtain ⟨visibility, loaded, inVisibility⟩ :=
    wf.getUserGuildChannelVisibility_agrees stored live member known present here
  obtain ⟨listed, list, inList⟩ := wf.listVisibleGuildChannels_agrees stored live member known present here
  obtain ⟨authorization, authorized, allowed⟩ :=
    wf.authorizeGuildChannel_agrees stored live member known present here
  refine ⟨ready, visibility, listed, authorization, readied, loaded, list, authorized, ?_⟩
  rw [allowed]
  refine ⟨inReady, inVisibility, inList, fun userIDs asked => ?_, fun roles overwrites someRoles someOverwrites => ?_⟩
  · exact wf.canViewMentionChannel_agrees stored live member asked
  · rw [wf.channelPermissions_perm (fun _ _ => someRoles.mem_iff) someOverwrites]

/-- A guild with a channel that everyone is denied and one role is allowed; user 2 has the role and user 3
has not. -/
def quietGuild : GuildTables where
  guilds := [{ id := 7, ownerID := 1 }]
  members := [⟨7, 1, false⟩, ⟨7, 2, false⟩, ⟨7, 3, false⟩]
  roles := [{ id := 7, guildID := 7, permissions := 1120, position := 0, isDefault := true },
    { id := 8, guildID := 7, permissions := 0, position := 1 }]
  memberRoles := [⟨7, 2, 8⟩]
  channels := [{ id := 9, guildID := 7 }]
  overwrites := [⟨9, 7, .role, 7, 0, 32⟩, ⟨9, 7, .role, 8, 32, 0⟩]

theorem quietGuild_wellFormed : quietGuild.WellFormed {} where
  guilds := by decide
  members := by decide
  roles := by decide
  channels := by decide
  overwrites := by decide
  default := by decide
  defaultID := by decide
  assigned := by decide
  overwritten := by decide
  guildID := by decide
  userID := by decide
  channelID := by decide
  joined userID := (length_filter_le _ _).trans (by decide)

theorem quietGuild_visibility_agreement : ∃ ready authorization,
    quietGuild.getUserReadyState {} 2 = .ok ready ∧
    quietGuild.authorizeGuildChannel 9 2 permissionViewChannel = .ok authorization ∧
    ((∃ entry ∈ ready, entry.guild = { id := 7, ownerID := 1 } ∧ { id := 9, guildID := 7 } ∈ entry.channels) ↔
      authorization.allowed = true) := by
  obtain ⟨ready, _, _, authorization, readied, _, _, authorized, agree, _⟩ :=
    channel_visibility_agreement quietGuild_wellFormed
      (show ({ id := 7, ownerID := 1 } : GuildRow) ∈ quietGuild.guilds by decide) rfl
      (show quietGuild.isMember 7 2 = true by decide) (show { id := 9, guildID := 7 } ∈ quietGuild.channels by decide)
      rfl rfl
  exact ⟨ready, authorization, readied, authorized, agree⟩

end Cordis.Guild
