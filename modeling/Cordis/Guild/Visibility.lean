import Cordis.Go.Result
import Cordis.Guild.Tables

/-! # Which channels a member sees

Five calls decide whether a member sees a channel: READY, the visibility snapshot of one guild, the list
of channels, the authorization of a channel, and the choice of whom a mention reaches. They load the
roles and the overwrites through different queries and treat owners and administrators at different
places.
-/

namespace Cordis.Guild

/-- The errors of a call that reaches the tables. -/
inductive GuildError where
  | invalidRequest (message : String)
  | notFound
  | permissionDenied
  | memberAlreadyExists
  | inviteNotFound
  | userBanned
  | resourceLimitExceeded
  | channelLayoutConflict
  | internal
deriving DecidableEq, Repr

/-- `sql.ErrNoRows` becomes not found. -/
def found {α : Type} : Option α → Except GuildError α
  | some value => .ok value
  | none => .error .notFound

theorem found_eq_ok {α : Type} {row : Option α} {value : α} : found row = .ok value ↔ row = some value := by
  cases row <;> simp [found]

def sees (permissions : Permissions) : Bool := decide (permissions &&& permissionViewChannel ≠ 0)

def visibleGuildChannels (authority : MemberAuthority) (roles : List Role) (channels : List Channel)
    (overwrites : List Overwrite) (userID : ℤ) : List Channel :=
  if authority.unrestricted then channels
  else channels.filter fun channel => sees (channelPermissions authority roles
    (overwrites.filter fun overwrite => overwrite.channelID = channel.id) userID)

/-- What READY says of one guild. -/
structure ReadyGuild where
  guild : GuildRow
  accessRevision : ℕ
  channelLayoutRevision : ℕ
  roles : List Role
  memberRoleIDs : List ℤ
  channels : List Channel
  permissionOverwrites : List Overwrite
deriving DecidableEq, Repr

structure ChannelVisibility where
  guildID : ℤ
  accessRevision : ℕ
  visibleChannelIDs : List ℤ
  visibleTextChannelIDs : List ℤ
deriving DecidableEq, Repr

structure ChannelAuthorization where
  guildID : ℤ
  permissions : Permissions
  allowed : Bool
  channelType : ChannelType
deriving DecidableEq, Repr

namespace GuildTables

variable (tables : GuildTables)

variable (guildID : ℤ) (userID : ℤ)

def loadMemberAuthorityAndRoles : Except GuildError (MemberAuthority × List Role) :=
  (found (tables.getGuildForMember guildID userID)).map fun guild =>
    if guild.ownerID = userID then (memberAuthorityFromRoles guild [] userID, [])
    else (memberAuthorityFromRoles guild (tables.listGuildMemberRoles guildID userID) userID,
      tables.listGuildMemberRoles guildID userID)

def loadMemberAuthority : Except GuildError MemberAuthority :=
  (tables.loadMemberAuthorityAndRoles guildID userID).map Prod.fst

/-- The channels of one guild in READY. -/
def readyChannels (guildIDs : List ℤ) (guild : GuildRow) (userID : ℤ) : List Channel :=
  orderBy (fun channel => [channel.position, channel.id])
    (visibleGuildChannels
      (memberAuthorityFromRoles guild
        ((tables.listGuildMemberRolesByGuilds guildIDs userID).filter fun role => role.guildID = guild.id) userID)
      ((tables.listGuildMemberRolesByGuilds guildIDs userID).filter fun role => role.guildID = guild.id)
      ((tables.listGuildChannelsWithRevisionsByGuilds guildIDs).1.filter fun channel => channel.guildID = guild.id)
      ((tables.listGuildChannelPermissionOverwritesByGuilds guildIDs userID).filter fun overwrite =>
        overwrite.guildID = guild.id)
      userID)

/-- What READY says of one of the listed guilds, without the overwrites of the channels. -/
def readyGuild (guildIDs : List ℤ) (userID : ℤ) (guild : GuildRow) : ReadyGuild where
  guild
  accessRevision := guild.accessRevision
  channelLayoutRevision := (tables.listGuildChannelsWithRevisionsByGuilds guildIDs).2 guild.id
  roles := (tables.listGuildRolesByGuilds guildIDs).filter fun role => role.guildID = guild.id
  memberRoleIDs := orderBy (fun id => [id]) (((tables.listGuildMemberRolesByGuilds guildIDs userID).filter fun role =>
    role.guildID = guild.id ∧ role.isDefault = false).map Role.id)
  channels := tables.readyChannels guildIDs guild userID
  permissionOverwrites := []

/-- All overwrites of the channels that the guilds show. -/
def withOverwrites (guilds : List ReadyGuild) : List ReadyGuild :=
  guilds.map fun ready => { ready with
    permissionOverwrites := (tables.listGuildChannelPermissionOverwritesByChannels
      (guilds.flatMap fun other => other.channels.map Channel.id)).filter fun overwrite =>
        overwrite.guildID = ready.guild.id }

def getUserReadyState (limits : GuildLimits) (userID : ℤ) : Except GuildError (List ReadyGuild) :=
  if userID ≤ 0 then .error (.invalidRequest "user id is required")
  else .ok (tables.withOverwrites ((tables.listUserGuilds userID 0 limits.joinedGuilds).map
    (tables.readyGuild ((tables.listUserGuilds userID 0 limits.joinedGuilds).map GuildRow.id) userID)))

/-- The channels of the guild that the user sees, for a user who is not the owner with all roles and
overwrites of the guild. -/
def snapshotChannels (guild : GuildRow) (userID : ℤ) : List Channel :=
  if guild.ownerID ≠ userID then
    visibleGuildChannels (memberAuthorityFromRoles guild (tables.listGuildMemberRoles guild.id userID) userID)
      (tables.listGuildMemberRoles guild.id userID) (tables.listGuildChannels guild.id)
      (tables.listGuildChannelPermissionOverwritesByGuild guild.id) userID
  else visibleGuildChannels (memberAuthorityFromRoles guild [] userID) [] (tables.listGuildChannels guild.id) [] userID

def getUserGuildChannelVisibility : Except GuildError ChannelVisibility :=
  if userID ≤ 0 then .error (.invalidRequest "user id is required")
  else if guildID ≤ 0 then .error (.invalidRequest "guild id is required")
  else (found (tables.getGuildForMember guildID userID)).map fun guild =>
    { guildID
      accessRevision := guild.accessRevision
      visibleChannelIDs := orderBy (fun id => [id]) ((tables.snapshotChannels guild userID).map Channel.id)
      visibleTextChannelIDs := orderBy (fun id => [id])
        (((tables.snapshotChannels guild userID).filter fun channel => channel.type = .text).map Channel.id) }

def loadVisibleGuildChannels : Except GuildError (List Channel × ℕ) := do
  let (authority, roles) ← tables.loadMemberAuthorityAndRoles guildID userID
  let (channels, layoutRevision) ← found (tables.listGuildChannelsWithRevision guildID)
  if authority.unrestricted then return (channels, layoutRevision)
  return (visibleGuildChannels authority roles channels (tables.listGuildChannelPermissionOverwritesByGuild guildID)
    userID, layoutRevision)

/-- The call `ListGuildChannels`. -/
def listVisibleGuildChannels (actorUserID : ℤ) : Except GuildError (List Channel × ℕ) :=
  if guildID ≤ 0 then .error (.invalidRequest "guild id is required")
  else if actorUserID ≤ 0 then .error (.invalidRequest "actor user id is required")
  else tables.loadVisibleGuildChannels guildID actorUserID

def loadAuthorizedChannel (channelID userID : ℤ) : Except GuildError (Channel × Permissions) := do
  let channel ← found (tables.getGuildChannel channelID)
  let (authority, roles) ← tables.loadMemberAuthorityAndRoles channel.guildID userID
  if authority.unrestricted then return (channel, allGuildPermissions)
  return (channel, channelPermissions authority roles (tables.listGuildChannelPermissionOverwrites channelID) userID)

def authorizeGuildChannel (channelID userID : ℤ) (permission : Permissions) :
    Except GuildError ChannelAuthorization :=
  if channelID ≤ 0 ∨ userID ≤ 0 then .error (.invalidRequest "channel id and user id are required")
  else if permission = 0 then .error (.invalidRequest "permission is required")
  else if permission &&& ~~~allChannelPermissions ≠ 0 then
    .error (.invalidRequest "permission contains non-channel bits")
  else (tables.loadAuthorizedChannel channelID userID).map fun (channel, permissions) =>
    { guildID := channel.guildID
      permissions
      allowed := decide (permissions &&& permission = permission)
      channelType := channel.type }

/-- The roles of a user among those loaded for several. -/
def rolesByUser (userIDs : List ℤ) (userID : ℤ) : List Role :=
  ((tables.listGuildMemberRolesByUsers guildID userIDs).filter fun row => row.1 = userID).map Prod.snd

end GuildTables

def canViewMentionChannel (guild : GuildRow) (overwrites : List Overwrite) (roles : List Role) (userID : ℤ) : Bool :=
  (memberAuthorityFromRoles guild roles userID).unrestricted ||
    sees (channelPermissions (memberAuthorityFromRoles guild roles userID) roles overwrites userID)

/-- A member's permissions in a channel, from the rows themselves. -/
def GuildTables.effectivePermissions (tables : GuildTables) (guild : GuildRow) (userID channelID : ℤ) : Permissions :=
  channelPermissions (memberAuthorityFromRoles guild (tables.listGuildMemberRoles guild.id userID) userID)
    (tables.listGuildMemberRoles guild.id userID)
    (tables.overwrites.filter fun overwrite => overwrite.channelID = channelID) userID

section Evaluation

variable {guild : GuildRow} {roles roles' : List Role} {overwrites overwrites' : List Overwrite} {userID : ℤ}

theorem sees_all : sees allGuildPermissions = true := by decide

/-- Filtering out the visible channels asks each for its permissions, also for the unrestricted. -/
theorem mem_visibleGuildChannels {authority : MemberAuthority} {channels : List Channel} {channel : Channel} :
    channel ∈ visibleGuildChannels authority roles channels overwrites userID ↔
      channel ∈ channels ∧ sees (channelPermissions authority roles
        (overwrites.filter fun overwrite => overwrite.channelID = channel.id) userID) = true := by
  unfold visibleGuildChannels
  split_ifs with free
  · simp [channelPermissions_unrestricted free, sees_all]
  · simp

theorem canViewMentionChannel_eq :
    canViewMentionChannel guild overwrites roles userID =
      sees (channelPermissions (memberAuthorityFromRoles guild roles userID) roles overwrites userID) := by
  unfold canViewMentionChannel
  cases free : (memberAuthorityFromRoles guild roles userID).unrestricted
  · rfl
  · simp [channelPermissions_unrestricted free, sees_all]

/-- The owner's permissions do not depend on roles and overwrites. -/
theorem channelPermissions_owner (owner : guild.ownerID = userID) (roles' : List Role) :
    channelPermissions (memberAuthorityFromRoles guild roles userID) roles' overwrites userID = allGuildPermissions :=
  channelPermissions_unrestricted (by simp [MemberAuthority.unrestricted, owner]) ..

end Evaluation

end Cordis.Guild
