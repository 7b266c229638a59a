import Cordis.Guild.Visibility

/-! # The statements that change the tables

Each statement with its triggers: every changed row of a member, a role's permissions or life, an
assignment, a channel's life or an overwrite adds one to the access revision of its guild, and so does a
change of a guild's owner or life. Positions, parents and the layout revision have no trigger.
-/

namespace Cordis.Guild.GuildTables

variable (tables : GuildTables)

/-- The triggers of some changed rows, given by their guilds. -/
def bumpAll (guildIDs : List ℤ) : GuildTables :=
  { tables with guilds := tables.guilds.map fun guild =>
      { guild with accessRevision := guild.accessRevision + guildIDs.count guild.id } }

/-- Change some rows of a table. -/
def updateRows {Row : Type} (rows : List Row) (selected : Row → Bool) (change : Row → Row) : List Row :=
  rows.map fun row => if selected row then change row else row

section Members

/-- `INSERT … ON CONFLICT DO UPDATE`: a user who is banned or already a member gets no row. -/
def createGuildMember (guildID userID : ℤ) : Except GuildError GuildTables :=
  if ⟨guildID, userID⟩ ∈ tables.bans then .error .memberAlreadyExists
  else
    match tables.members.find? fun member => member.guildID = guildID ∧ member.userID = userID with
    | none => .ok ({ tables with members := tables.members ++ [Member.mk guildID userID false] }.bumpAll [guildID])
    | some member =>
      if member.deleted then
        .ok ({ tables with
          members := updateRows tables.members (fun member => member.guildID = guildID ∧ member.userID = userID)
            (fun member : Member => { member with deleted := false }) }.bumpAll [guildID])
      else .error .memberAlreadyExists

/-- Delete the live members that are selected. -/
def deleteMembers (selected : Member → Bool) : GuildTables :=
  { tables with
    members := updateRows tables.members (fun member : Member => !member.deleted && selected member)
      (fun member : Member => { member with deleted := true }) }.bumpAll
    ((tables.members.filter fun member : Member => !member.deleted && selected member).map Member.guildID)

def removeGuildMember (guildID userID : ℤ) : Except GuildError GuildTables :=
  if tables.isMember guildID userID then
    .ok (tables.deleteMembers fun member => member.guildID = guildID ∧ member.userID = userID)
  else .error .notFound

def deleteGuildMembers (guildID : ℤ) : GuildTables := tables.deleteMembers fun member => member.guildID = guildID

end Members

section Roles

/-- The id is the primary key. -/
def createGuildRole (role : Role) : Except GuildError GuildTables :=
  if role.id ∈ tables.roles.map Role.id then .error .internal
  else .ok ({ tables with roles := tables.roles ++ [role] }.bumpAll [role.guildID])

variable (guildID : ℤ)

def updateGuildRole (roleID : ℤ) (permissions : Option Permissions) : Except GuildError GuildTables :=
  (found (tables.getGuildRole guildID roleID)).map fun role =>
    { tables with
      roles := updateRows tables.roles (fun row => row.id = role.id)
        (fun row => { row with permissions := permissions.getD row.permissions }) }.bumpAll [guildID]

/-- The live roles of the guild other than the default one that have a requested position. -/
def UpdatesPosition (positions : List (ℤ × ℕ)) (role : Role) : Bool :=
  role.guildID = guildID ∧ role.isDefault = false ∧ role.deleted = false ∧ (positions.lookup role.id).isSome

def updateGuildRolePositions (positions : List (ℤ × ℕ)) : GuildTables :=
  { tables with roles := updateRows tables.roles (UpdatesPosition guildID positions) fun role =>
      { role with position := (positions.lookup role.id).getD role.position } }

/-- Delete the live roles that are selected. -/
def deleteRoles (selected : Role → Bool) : GuildTables :=
  { tables with
    roles := updateRows tables.roles (fun role : Role => !role.deleted && selected role)
      (fun role : Role => { role with deleted := true }) }.bumpAll
    ((tables.roles.filter fun role : Role => !role.deleted && selected role).map Role.guildID)

def deleteGuildRole (roleID : ℤ) : Except GuildError GuildTables :=
  match tables.getGuildRole guildID roleID with
  | none => .error .notFound
  | some role =>
    if role.isDefault then .error .notFound
    else .ok (tables.deleteRoles fun row => row.guildID = guildID ∧ row.id = roleID)

def deleteGuildRoles : GuildTables := tables.deleteRoles fun role => role.guildID = guildID

/-- `ON CONFLICT DO NOTHING`. -/
def addGuildMemberRole (assignment : MemberRole) : GuildTables :=
  if assignment ∈ tables.memberRoles then tables
  else { tables with memberRoles := tables.memberRoles ++ [assignment] }.bumpAll [assignment.guildID]

/-- Delete the assignments that are selected. -/
def deleteMemberRoles (selected : MemberRole → Bool) : GuildTables :=
  { tables with memberRoles := tables.memberRoles.filter fun assignment => !selected assignment }.bumpAll
    ((tables.memberRoles.filter selected).map MemberRole.guildID)

def removeGuildMemberRole (assignment : MemberRole) : GuildTables :=
  tables.deleteMemberRoles fun row => row = assignment

def deleteGuildMemberRoleAssignments (userID : ℤ) : GuildTables :=
  tables.deleteMemberRoles fun row => row.guildID = guildID ∧ row.userID = userID

def deleteGuildRoleAssignments (roleID : ℤ) : GuildTables :=
  tables.deleteMemberRoles fun row => row.guildID = guildID ∧ row.roleID = roleID

def deleteAllGuildRoleAssignments : GuildTables :=
  tables.deleteMemberRoles fun row => row.guildID = guildID

end Roles

section Channels

structure PositionUpdate where
  channelID : ℤ
  position : ℕ
  parentID : ℤ
deriving DecidableEq, Repr

variable (guildID : ℤ) (updates : List PositionUpdate) (channel : Channel)

/-- The id is the primary key and positive. -/
def createGuildChannel : Except GuildError GuildTables :=
  if channel.id ≤ 0 ∨ channel.id ∈ tables.channels.map Channel.id then .error .internal
  else .ok ({ tables with channels := tables.channels ++ [channel] }.bumpAll [channel.guildID])

variable (channelID : ℤ)

/-- What is requested for the channel. -/
def placement : Option PositionUpdate :=
  updates.find? fun update => update.channelID = channelID

/-- A live channel of the guild that the updates name. -/
def Places : Bool :=
  channel.guildID = guildID ∧ channel.deleted = false ∧ (placement updates channel.id).isSome

def place : Channel :=
  (placement updates channel.id).elim channel fun update =>
    { channel with position := update.position, parentID := update.parentID }

/-- The channels that the updates name, as they are afterwards. -/
def placedChannels : List Channel :=
  (tables.channels.filter (Places guildID updates)).map (place updates)

def updateGuildChannelPositions : GuildTables :=
  { tables with channels := updateRows tables.channels (Places guildID updates) (place updates) }

/-- The name and the topic have no place here, so only a parent changes the row. -/
def updateGuildChannel (parentID : Option ℤ) : Except GuildError GuildTables :=
  (found (tables.getGuildChannel channelID)).map fun channel =>
    { tables with
      channels := updateRows tables.channels (fun row => row.id = channel.id)
        (fun row => { row with parentID := parentID.getD row.parentID }) }

def clearGuildChannelParent (parentID : ℤ) : GuildTables :=
  { tables with
    channels := updateRows tables.channels
      (fun channel => channel.guildID = guildID ∧ channel.parentID = parentID ∧ channel.deleted = false)
      (fun channel : Channel => { channel with parentID := 0 }) }

/-- Delete the live channels that are selected. -/
def deleteChannels (selected : Channel → Bool) : GuildTables :=
  { tables with
    channels := updateRows tables.channels (fun channel : Channel => !channel.deleted && selected channel)
      (fun channel : Channel => { channel with deleted := true }) }.bumpAll
    ((tables.channels.filter fun channel : Channel => !channel.deleted && selected channel).map Channel.guildID)

def deleteGuildChannel : Except GuildError GuildTables :=
  (found (tables.getGuildChannel channelID)).map fun _ =>
    tables.deleteChannels fun channel => channel.id = channelID

def deleteGuildChannels : GuildTables := tables.deleteChannels fun channel => channel.guildID = guildID

/-- The target of the overwrite on its channel, which is the primary key. -/
def SameTarget (first second : Overwrite) : Bool :=
  first.channelID = second.channelID ∧ first.appliesTo = second.appliesTo ∧ first.appliesToID = second.appliesToID

def upsertGuildChannelPermissionOverwrite (overwrite : Overwrite) : GuildTables :=
  { tables with
    overwrites :=
      if tables.overwrites.any (SameTarget overwrite) then
        updateRows tables.overwrites (SameTarget overwrite) fun row => { row with allow := overwrite.allow, deny := overwrite.deny }
      else tables.overwrites ++ [overwrite] }.bumpAll [overwrite.guildID]

/-- Delete the overwrites that are selected. -/
def deleteOverwrites (selected : Overwrite → Bool) : GuildTables :=
  { tables with overwrites := tables.overwrites.filter fun overwrite => !selected overwrite }.bumpAll
    ((tables.overwrites.filter selected).map Overwrite.guildID)

def deleteGuildChannelPermissionOverwrite (appliesTo : AppliesTo) (appliesToID : ℤ) : GuildTables :=
  tables.deleteOverwrites fun row =>
    row.channelID = channelID ∧ row.appliesTo = appliesTo ∧ row.appliesToID = appliesToID

def deleteGuildChannelPermissionOverwrites : GuildTables :=
  tables.deleteOverwrites fun row => row.channelID = channelID

def deleteGuildChannelPermissionOverwritesForAppliesTo (appliesTo : AppliesTo) (appliesToID : ℤ) : GuildTables :=
  tables.deleteOverwrites fun row =>
    row.guildID = guildID ∧ row.appliesTo = appliesTo ∧ row.appliesToID = appliesToID

def deleteAllGuildChannelPermissionOverwrites : GuildTables :=
  tables.deleteOverwrites fun row => row.guildID = guildID

end Channels

section Guilds

/-- A guild's row changes in its owner or its life. -/
def updateGuildRow (selected : GuildRow → Bool) (change : GuildRow → GuildRow) : GuildTables :=
  { tables with guilds := updateRows tables.guilds selected fun guild =>
      { change guild with accessRevision := guild.accessRevision + 1 } }

/-- The owner changes only if it is the one given; the new owner is another. -/
def transferGuildOwnership (guildID ownerID newOwnerID : ℤ) : Except GuildError GuildTables :=
  match tables.getGuild guildID with
  | none => .error .notFound
  | some guild =>
    if guild.ownerID = ownerID then
      .ok (tables.updateGuildRow (fun row => row.id = guildID) fun row => { row with ownerID := newOwnerID })
    else .error .notFound

def deleteGuild (guildID : ℤ) : Except GuildError GuildTables :=
  (found (tables.getGuild guildID)).map fun guild =>
    tables.updateGuildRow (fun row => row.id = guild.id) fun row => { row with deleted := true }

/-- The layout revision moves on only from the expected one. -/
def advanceGuildChannelLayoutRevision (guildID : ℤ) (expected : ℤ) : Except GuildError GuildTables :=
  match tables.getGuild guildID with
  | none => .error .channelLayoutConflict
  | some guild =>
    if (guild.channelLayoutRevision : ℤ) = expected then
      .ok { tables with
        guilds := updateRows tables.guilds (fun row => row.id = guildID)
          fun row => { row with channelLayoutRevision := row.channelLayoutRevision + 1 } }
    else .error .channelLayoutConflict

def upsertGuildBan (ban : Ban) : GuildTables :=
  if ban ∈ tables.bans then tables else { tables with bans := tables.bans ++ [ban] }

def deleteGuildBans (guildID : ℤ) : GuildTables :=
  { tables with bans := tables.bans.filter fun ban => ban.guildID ≠ guildID }

def Invite.Usable (invite : Invite) (now : ℤ) : Prop :=
  (invite.expiresAt = 0 ∨ now < invite.expiresAt) ∧ (invite.maxUses = 0 ∨ invite.uses < invite.maxUses)
deriving Decidable

def getGuildInvite (code : String) : Option Invite := tables.invites.find? fun invite => invite.code = code

def consumeGuildInvite (code : String) : GuildTables :=
  { tables with
    invites := updateRows tables.invites (fun invite => invite.code = code)
      fun invite => { invite with uses := invite.uses + 1 } }

def deleteGuildInvites (guildID : ℤ) : GuildTables :=
  { tables with invites := tables.invites.filter fun invite => invite.guildID ≠ guildID }

end Guilds

end Cordis.Guild.GuildTables
