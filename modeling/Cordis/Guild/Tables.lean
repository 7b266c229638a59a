import Cordis.Guild.Permissions
import Mathlib.Data.List.Lex
import Mathlib.Data.List.Sort

/-! # The tables of the guild service

The rows of the tables and the queries of the store. Names, topics, nicknames and times are left out:
nothing here reads them. Rows that the service deletes softly stay, marked as deleted. A query with an
order sorts the rows it has found.
-/

namespace Cordis.Guild

/-- A row of `guild_members`. -/
structure Member where
  guildID : ℤ
  userID : ℤ
  deleted : Bool := false
deriving DecidableEq, Repr

/-- A row of `guild_member_roles`. -/
structure MemberRole where
  guildID : ℤ
  userID : ℤ
  roleID : ℤ
deriving DecidableEq, Repr

inductive ChannelType where
  | text
  | category
  | voice
deriving DecidableEq, Repr

/-- A row of `guild_channels`; a channel without a category has parent zero. -/
structure Channel where
  id : ℤ
  guildID : ℤ
  type : ChannelType := .text
  position : ℕ := 0
  parentID : ℤ := 0
  deleted : Bool := false
deriving DecidableEq, Repr

/-- A row of `guild_bans`. -/
structure Ban where
  guildID : ℤ
  userID : ℤ
deriving DecidableEq, Repr

/-- A row of `guild_invites`; zero stands for no limit on its uses or its life. -/
structure Invite where
  code : String
  guildID : ℤ
  maxUses : ℕ := 0
  uses : ℕ := 0
  expiresAt : ℤ := 0
deriving DecidableEq, Repr

structure GuildTables where
  guilds : List GuildRow := []
  members : List Member := []
  roles : List Role := []
  memberRoles : List MemberRole := []
  channels : List Channel := []
  overwrites : List Overwrite := []
  bans : List Ban := []
  invites : List Invite := []
deriving DecidableEq, Repr

/-- `ORDER BY` some columns, compared one after the other. -/
def orderBy {α : Type} (columns : α → List ℤ) (rows : List α) : List α :=
  rows.insertionSort fun a b => columns a ≤ columns b

variable {α : Type}

@[simp] theorem mem_orderBy {columns : α → List ℤ} {rows : List α} {row : α} :
    row ∈ orderBy columns rows ↔ row ∈ rows :=
  List.mem_insertionSort _

@[simp] theorem length_orderBy (columns : α → List ℤ) (rows : List α) :
    (orderBy columns rows).length = rows.length :=
  List.length_insertionSort ..

theorem perm_orderBy (columns : α → List ℤ) (rows : List α) : (orderBy columns rows).Perm rows :=
  List.perm_insertionSort ..

/-- The rows come in the order of the first column. -/
theorem pairwise_orderBy (first : α → ℤ) (others : α → List ℤ) (rows : List α) :
    (orderBy (fun row => first row :: others row) rows).Pairwise fun a b => first a ≤ first b := by
  have total : Std.Total fun a b : α => first a :: others a ≤ first b :: others b := ⟨fun _ _ => le_total _ _⟩
  have trans : IsTrans α fun a b : α => first a :: others a ≤ first b :: others b := ⟨fun _ _ _ => le_trans⟩
  refine (List.pairwise_insertionSort _ _).imp fun {a b} below => ?_
  by_contra late
  have less : first b :: others b < first a :: others a := List.Lex.rel (not_le.mp late)
  exact absurd below (not_le.mpr less)

namespace GuildTables

variable (tables : GuildTables)

variable (guildID userID : ℤ)

def getGuild : Option GuildRow :=
  tables.guilds.find? fun guild => guild.id = guildID ∧ guild.deleted = false

/-- The user has a row as a member that is not deleted. -/
def isMember : Bool :=
  tables.members.any fun member => member.guildID = guildID ∧ member.userID = userID ∧ member.deleted = false

def getGuildForMember : Option GuildRow :=
  tables.guilds.find? fun guild => guild.id = guildID ∧ guild.deleted = false ∧ tables.isMember guild.id userID

/-- The guilds the user is in. -/
def guildsOf : List GuildRow :=
  tables.guilds.filter fun guild => guild.deleted = false ∧ tables.isMember guild.id userID

/-- The newest guilds of the user, below an id unless that is zero. -/
def listUserGuilds (before : ℤ) (limit : ℕ) : List GuildRow :=
  (orderBy (fun guild => [-guild.id]) ((tables.guildsOf userID).filter fun guild =>
    before = 0 ∨ guild.id < before)).take limit

def getGuildMember : Option Member :=
  tables.members.find? fun member => member.guildID = guildID ∧ member.userID = userID ∧ member.deleted = false

def getGuildRole (roleID : ℤ) : Option Role :=
  tables.roles.find? fun role => role.guildID = guildID ∧ role.id = roleID ∧ role.deleted = false

def listGuildRoles : List Role :=
  orderBy (fun role => [-role.position, role.id]) (tables.roles.filter fun role =>
    role.guildID = guildID ∧ role.deleted = false)

variable (guildIDs : List ℤ)

def listGuildRolesByGuilds : List Role :=
  orderBy (fun role => [role.guildID, -role.position, role.id]) (tables.roles.filter fun role =>
    role.guildID ∈ guildIDs ∧ role.deleted = false)

/-- The roles of a member: those assigned, and the default role without an assignment. -/
def listGuildMemberRoles : List Role :=
  orderBy (fun role => [-role.position, role.id]) (tables.roles.filter fun role =>
    role.guildID = guildID ∧ role.deleted = false ∧
      (role.isDefault ∨ ⟨guildID, userID, role.id⟩ ∈ tables.memberRoles))

def listGuildMemberRolesByGuilds (userID : ℤ) : List Role :=
  orderBy (fun role => [role.guildID, -role.position, role.id]) (tables.roles.filter fun role =>
    role.guildID ∈ guildIDs ∧ role.deleted = false ∧
      (role.isDefault ∨ ∃ assignment ∈ tables.memberRoles,
        assignment.guildID ∈ guildIDs ∧ assignment.userID = userID ∧ assignment.roleID = role.id))

/-- The roles of several users; every active member is given the role whose id is that of the guild. -/
def listGuildMemberRolesByUsers (userIDs : List ℤ) : List (ℤ × Role) :=
  ((tables.memberRoles.filter fun assignment => assignment.guildID = guildID ∧ assignment.userID ∈ userIDs).map
      (fun assignment => (assignment.userID, assignment.roleID)) ++
    (tables.members.filter fun member =>
      member.guildID = guildID ∧ member.userID ∈ userIDs ∧ member.deleted = false).map
      (fun member => (member.userID, guildID))).flatMap fun (userID, roleID) =>
    (tables.roles.filter fun role => role.guildID = guildID ∧ role.id = roleID ∧ role.deleted = false).map
      fun role => (userID, role)

def getGuildChannel (channelID : ℤ) : Option Channel :=
  tables.channels.find? fun channel => channel.id = channelID ∧ channel.deleted = false

def listGuildChannels : List Channel :=
  orderBy (fun channel => [channel.position, channel.id]) (tables.channels.filter fun channel =>
    channel.guildID = guildID ∧ channel.deleted = false)

/-- The channels of a live guild with the revision of their layout. -/
def listGuildChannelsWithRevision : Option (List Channel × ℕ) :=
  (tables.getGuild guildID).map fun guild => (tables.listGuildChannels guildID, guild.channelLayoutRevision)

/-- The channels of the guilds that are live. -/
def listGuildChannelsWithRevisionsByGuilds : List Channel × (ℤ → ℕ) :=
  (orderBy (fun channel => [channel.guildID, channel.position, channel.id]) (tables.channels.filter fun channel =>
    channel.guildID ∈ guildIDs ∧ channel.deleted = false ∧ (tables.getGuild channel.guildID).isSome),
    fun guildID => (tables.getGuild guildID).elim 0 (·.channelLayoutRevision))

def appliesToCode : AppliesTo → ℤ
  | .role => 1
  | .member => 2

def listGuildChannelPermissionOverwrites (channelID : ℤ) : List Overwrite :=
  orderBy (fun overwrite => [appliesToCode overwrite.appliesTo, overwrite.appliesToID])
    (tables.overwrites.filter fun overwrite => overwrite.channelID = channelID)

def listGuildChannelPermissionOverwritesByChannels (channelIDs : List ℤ) : List Overwrite :=
  orderBy (fun overwrite =>
      [overwrite.guildID, overwrite.channelID, appliesToCode overwrite.appliesTo, overwrite.appliesToID])
    (tables.overwrites.filter fun overwrite => overwrite.channelID ∈ channelIDs)

def listGuildChannelPermissionOverwritesByGuild : List Overwrite :=
  orderBy (fun overwrite => [overwrite.channelID, appliesToCode overwrite.appliesTo, overwrite.appliesToID])
    (tables.overwrites.filter fun overwrite => overwrite.guildID = guildID)

/-- The overwrites of several guilds whose target is the user, everyone, or a role assigned to the
user. -/
def listGuildChannelPermissionOverwritesByGuilds (userID : ℤ) : List Overwrite :=
  orderBy (fun overwrite =>
      [overwrite.guildID, overwrite.channelID, appliesToCode overwrite.appliesTo, overwrite.appliesToID])
    (tables.overwrites.filter fun overwrite => overwrite.guildID ∈ guildIDs ∧
      (overwrite.appliesTo = .member ∧ overwrite.appliesToID = userID ∨
        overwrite.appliesTo = .role ∧ (overwrite.appliesToID = overwrite.guildID ∨
          ⟨overwrite.guildID, userID, overwrite.appliesToID⟩ ∈ tables.memberRoles)))

end GuildTables

/-- The configured limits that operations check. -/
structure GuildLimits where
  ownedGuilds : ℕ := 10
  joinedGuilds : ℕ := 100
  roles : ℕ := 250
  channels : ℕ := 500
  overwrites : ℕ := 100
deriving DecidableEq, Repr

/-- What the constraints of the tables and the operations on them keep: keys are unique, a live guild
has its default role under its own id, assignments are of roles of their guild, overwrites are of
channels of theirs, ids are positive, and nobody is in more guilds than allowed. -/
structure GuildTables.WellFormed (limits : GuildLimits) (tables : GuildTables) : Prop where
  guilds : (tables.guilds.map GuildRow.id).Nodup
  members : (tables.members.map fun member => (member.guildID, member.userID)).Nodup
  roles : (tables.roles.map Role.id).Nodup
  channels : (tables.channels.map Channel.id).Nodup
  overwrites : (tables.overwrites.map fun overwrite =>
    (overwrite.channelID, overwrite.appliesTo, overwrite.appliesToID)).Nodup
  default : ∀ guild ∈ tables.guilds, guild.deleted = false →
    ∃ role ∈ tables.roles, role.id = guild.id ∧ role.guildID = guild.id ∧ role.isDefault ∧ role.deleted = false
  defaultID : ∀ role ∈ tables.roles, role.isDefault → role.id = role.guildID
  assigned : ∀ assignment ∈ tables.memberRoles,
    ∃ role ∈ tables.roles, role.id = assignment.roleID ∧ role.guildID = assignment.guildID
  overwritten : ∀ overwrite ∈ tables.overwrites,
    ∃ channel ∈ tables.channels, channel.id = overwrite.channelID ∧ channel.guildID = overwrite.guildID
  guildID : ∀ guild ∈ tables.guilds, 0 < guild.id
  userID : ∀ member ∈ tables.members, 0 < member.userID
  channelID : ∀ channel ∈ tables.channels, 0 < channel.id
  joined : ∀ userID, (tables.guildsOf userID).length ≤ limits.joinedGuilds

end Cordis.Guild
