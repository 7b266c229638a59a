import Cordis.Guild.Operations
import Cordis.Machine.RowTable
import Cordis.Machine.Service

/-! # The guild operations as concurrent transactions

The operations on roles, members, bans and overwrites, statement by statement, on tables with row locks
under READ COMMITTED. A query runs on what its transaction sees: the committed rows and its own
uncommitted ones. A statement that writes computes its changes, those of its triggers included, from the
newest versions of its rows, and is enabled once no other transaction has locked any of them.

Three kinds of statements look before they wait for a lock, and come in two steps here, a query for what
they have seen and a write: the deletions and moves of several rows, and `CreateGuildMemberQuery`, whose
test for a ban is made on the rows that are visible when the statement starts.

A statement that finds nothing to change does not wait. The check that an actor passes before a
transaction begins and the events at its end are left out: the first is made again inside, and the
second only waits for one more lock.
-/

namespace Cordis.Guild

open Go (require)

section Database

def Member.key (member : Member) : ℤ × ℤ := (member.guildID, member.userID)

def Overwrite.key (overwrite : Overwrite) : ℤ × AppliesTo × ℤ :=
  (overwrite.channelID, overwrite.appliesTo, overwrite.appliesToID)

/-- What a quota counts, with the scope of its lock. -/
inductive ResourceQuota where
  | ownedGuilds (userID : ℤ)
  | joinedGuilds (userID guildID : ℤ)
  | guildRoles (guildID : ℤ)
  | channelOverwrites (overwrite : Overwrite)
deriving DecidableEq, Repr

inductive QuotaKind where
  | ownedGuilds
  | joinedGuilds
  | guildRoles
  | channelOverwrites
deriving DecidableEq, Repr

def ResourceQuota.scope : ResourceQuota → QuotaKind × ℤ
  | .ownedGuilds userID => (.ownedGuilds, userID)
  | .joinedGuilds userID _ => (.joinedGuilds, userID)
  | .guildRoles guildID => (.guildRoles, guildID)
  | .channelOverwrites overwrite => (.channelOverwrites, overwrite.channelID)

/-- The tables under row locks, and the advisory locks of the quotas. No statement here changes a
channel. -/
structure GuildDatabase where
  guilds : RowTable ℕ GuildRow.id
  members : RowTable ℕ Member.key
  roles : RowTable ℕ Role.id
  memberRoles : RowTable ℕ (id : MemberRole → MemberRole)
  overwrites : RowTable ℕ Overwrite.key
  bans : RowTable ℕ (id : Ban → Ban)
  invites : RowTable ℕ Invite.code
  quotas : LockedTable ℕ (QuotaKind × ℤ) Unit := .empty
  channels : List Channel := []

/-- Tables without open transactions. -/
def GuildTables.database (tables : GuildTables) : GuildDatabase where
  guilds := .ofRows tables.guilds
  members := .ofRows tables.members
  roles := .ofRows tables.roles
  memberRoles := .ofRows tables.memberRoles
  overwrites := .ofRows tables.overwrites
  bans := .ofRows tables.bans
  invites := .ofRows tables.invites
  channels := tables.channels

/-- The change of one row, or the taking of a quota's lock. -/
inductive Change where
  | guild (row : GuildRow)
  | member (row : Member)
  | role (row : Role)
  | addMemberRole (assignment : MemberRole)
  | dropMemberRole (assignment : MemberRole)
  | overwrite (row : Overwrite)
  | dropOverwrite (key : ℤ × AppliesTo × ℤ)
  | addBan (ban : Ban)
  | dropBan (ban : Ban)
  | invite (row : Invite)
  | quota (scope : QuotaKind × ℤ)

namespace GuildDatabase

variable (db : GuildDatabase)

/-- What a reader sees. -/
def view (reader : Option ℕ) : GuildTables where
  guilds := db.guilds.rows reader
  members := db.members.rows reader
  roles := db.roles.rows reader
  memberRoles := db.memberRoles.rows reader
  channels := db.channels
  overwrites := db.overwrites.rows reader
  bans := db.bans.rows reader
  invites := db.invites.rows reader

def applyChange (tx : ℕ) : Change → Option GuildDatabase
  | .guild row => (db.guilds.insert tx row).map fun guilds => { db with guilds }
  | .member row => (db.members.insert tx row).map fun members => { db with members }
  | .role row => (db.roles.insert tx row).map fun roles => { db with roles }
  | .addMemberRole assignment => (db.memberRoles.insert tx assignment).map fun memberRoles => { db with memberRoles }
  | .dropMemberRole assignment => (db.memberRoles.erase tx assignment).map fun memberRoles => { db with memberRoles }
  | .overwrite row => (db.overwrites.insert tx row).map fun overwrites => { db with overwrites }
  | .dropOverwrite key => (db.overwrites.erase tx key).map fun overwrites => { db with overwrites }
  | .addBan ban => (db.bans.insert tx ban).map fun bans => { db with bans }
  | .dropBan ban => (db.bans.erase tx ban).map fun bans => { db with bans }
  | .invite row => (db.invites.insert tx row).map fun invites => { db with invites }
  | .quota scope => (db.quotas.write tx scope ()).map fun quotas => { db with quotas }

def apply (tx : ℕ) : GuildDatabase → List Change → Option GuildDatabase
  | db, [] => some db
  | db, change :: changes => (db.applyChange tx change).bind fun next => apply tx next changes

def commit (tx : ℕ) : GuildDatabase where
  guilds := db.guilds.commit tx
  members := db.members.commit tx
  roles := db.roles.commit tx
  memberRoles := db.memberRoles.commit tx
  overwrites := db.overwrites.commit tx
  bans := db.bans.commit tx
  invites := db.invites.commit tx
  quotas := db.quotas.commit tx
  channels := db.channels

def rollback (tx : ℕ) : GuildDatabase where
  guilds := db.guilds.rollback tx
  members := db.members.rollback tx
  roles := db.roles.rollback tx
  memberRoles := db.memberRoles.rollback tx
  overwrites := db.overwrites.rollback tx
  bans := db.bans.rollback tx
  invites := db.invites.rollback tx
  quotas := db.quotas.rollback tx
  channels := db.channels

end GuildDatabase

end Database

section Statements

inductive Query where
  | getGuild (guildID : ℤ)
  | getGuildForMember (guildID userID : ℤ)
  | getGuildMember (guildID userID : ℤ)
  | listGuildMemberRoles (guildID userID : ℤ)
  | getGuildRole (guildID roleID : ℤ)
  | listGuildRoles (guildID : ℤ)
  | getGuildBan (guildID userID : ℤ)
  | getGuildChannel (channelID : ℤ)
  | getGuildInvite (code : String)
  | countResources (quota : ResourceQuota)
  /-- The rows that `DeleteGuildMemberRoleAssignments` has seen. -/
  | seenMemberRoles (guildID userID : ℤ)
  /-- The rows that `DeleteGuildRoleAssignments` has seen. -/
  | seenRoleAssignments (guildID roleID : ℤ)
  /-- The rows that `DeleteGuildChannelPermissionOverwritesForAppliesTo` has seen. -/
  | seenOverwrites (guildID : ℤ) (appliesTo : AppliesTo) (appliesToID : ℤ)
  /-- The rows that `UpdateGuildRolePositions` has seen. -/
  | seenRoles (guildID : ℤ) (positions : List (ℤ × ℕ))
  /-- Whether `CreateGuildMember` has seen a ban. -/
  | seenBan (guildID userID : ℤ)
deriving DecidableEq

@[reducible] def Query.Reply : Query → Type
  | .getGuild _ | .getGuildForMember _ _ => Option GuildRow
  | .getGuildMember _ _ => Option Member
  | .listGuildMemberRoles _ _ | .listGuildRoles _ => List Role
  | .getGuildRole _ _ => Option Role
  | .getGuildBan _ _ | .seenBan _ _ => Bool
  | .getGuildChannel _ => Option Channel
  | .getGuildInvite _ => Option Invite
  | .countResources _ => Except GuildError Unit
  | .seenMemberRoles _ _ | .seenRoleAssignments _ _ => List MemberRole
  | .seenOverwrites _ _ _ => List (ℤ × AppliesTo × ℤ)
  | .seenRoles _ _ => List ℤ

variable (limits : GuildLimits) (tables : GuildTables)

/-- The count of `CheckResourceQuota`. -/
def countResources : ResourceQuota → Except GuildError Unit
  | .ownedGuilds userID =>
      require ((tables.guilds.filter fun row => row.ownerID = userID ∧ row.deleted = false).length < limits.ownedGuilds)
        .resourceLimitExceeded
  | .joinedGuilds userID guildID => checkJoinedQuota limits tables guildID userID
  | .guildRoles guildID => require ((tables.listGuildRoles guildID).length < limits.roles) .resourceLimitExceeded
  | .channelOverwrites overwrite => checkOverwriteQuota limits tables overwrite

def Query.run : (q : Query) → q.Reply
  | .getGuild guildID => tables.getGuild guildID
  | .getGuildForMember guildID userID => tables.getGuildForMember guildID userID
  | .getGuildMember guildID userID => tables.getGuildMember guildID userID
  | .listGuildMemberRoles guildID userID => tables.listGuildMemberRoles guildID userID
  | .getGuildRole guildID roleID => tables.getGuildRole guildID roleID
  | .listGuildRoles guildID => tables.listGuildRoles guildID
  | .getGuildBan guildID userID | .seenBan guildID userID => decide (⟨guildID, userID⟩ ∈ tables.bans)
  | .getGuildChannel channelID => tables.getGuildChannel channelID
  | .getGuildInvite code => tables.getGuildInvite code
  | .countResources quota => Guild.countResources limits tables quota
  | .seenMemberRoles guildID userID => tables.memberRoles.filter fun row => row.guildID = guildID ∧ row.userID = userID
  | .seenRoleAssignments guildID roleID =>
      tables.memberRoles.filter fun row => row.guildID = guildID ∧ row.roleID = roleID
  | .seenOverwrites guildID appliesTo appliesToID =>
      (tables.overwrites.filter fun row =>
        row.guildID = guildID ∧ row.appliesTo = appliesTo ∧ row.appliesToID = appliesToID).map Overwrite.key
  | .seenRoles guildID positions => (tables.roles.filter (GuildTables.UpdatesPosition guildID positions)).map Role.id

inductive Write where
  | lockQuotaScope (scope : QuotaKind × ℤ)
  | createGuildRole (role : Role)
  | updateGuildRole (guildID roleID : ℤ) (permissions : Option Permissions)
  | updateGuildRolePositions (guildID : ℤ) (positions : List (ℤ × ℕ)) (seen : List ℤ)
  | deleteGuildRole (guildID roleID : ℤ)
  | addGuildMemberRole (assignment : MemberRole)
  | deleteMemberRoles (seen : List MemberRole)
  | upsertGuildChannelPermissionOverwrite (overwrite : Overwrite)
  | deleteOverwrites (seen : List (ℤ × AppliesTo × ℤ))
  | createGuildMember (guildID userID : ℤ) (seenBan : Bool)
  | removeGuildMember (guildID userID : ℤ)
  | upsertGuildBan (ban : Ban)
  | deleteGuildBan (ban : Ban)
  | consumeGuildInvite (code : String) (now : ℤ)
  | transferGuildOwnership (guildID ownerID newOwnerID : ℤ)
deriving DecidableEq

/-- Whether a row has been changed, or how many have, where the source looks at it. -/
@[reducible] def Write.Reply : Write → Type
  | .lockQuotaScope _ | .addGuildMemberRole _ | .deleteMemberRoles _ | .upsertGuildChannelPermissionOverwrite _
  | .deleteOverwrites _ | .upsertGuildBan _ => Unit
  | .createGuildRole _ | .updateGuildRole _ _ _ | .deleteGuildRole _ _ | .createGuildMember _ _ _
  | .removeGuildMember _ _ | .deleteGuildBan _ | .transferGuildOwnership _ _ _ => Bool
  | .updateGuildRolePositions _ _ _ => ℕ
  | .consumeGuildInvite _ _ => Option Invite

/-- The triggers of some changed rows of a guild. -/
def bumpGuild (guildID : ℤ) (count : ℕ) : List Change :=
  (tables.guilds.find? fun guild => guild.id = guildID).toList.map fun guild =>
    .guild { guild with accessRevision := guild.accessRevision + count }

/-- The triggers of changed rows of several guilds. -/
def bumpGuilds (guildIDs : List ℤ) : List Change :=
  guildIDs.dedup.flatMap fun guildID => bumpGuild tables guildID (guildIDs.count guildID)

/-- The changes of a statement and its result, from the newest versions of its rows. -/
def Write.changes : (w : Write) → List Change × w.Reply
  | .lockQuotaScope scope => ([.quota scope], ())
  | .createGuildRole role =>
      if role.id ∈ tables.roles.map Role.id then ([], false)
      else (.role role :: bumpGuild tables role.guildID 1, true)
  | .updateGuildRole guildID roleID permissions =>
      match tables.getGuildRole guildID roleID with
      | none => ([], false)
      | some role =>
        (.role { role with permissions := permissions.getD role.permissions } :: bumpGuild tables guildID 1, true)
  | .updateGuildRolePositions guildID positions seen =>
      ((tables.roles.filter fun role => role.id ∈ seen ∧ GuildTables.UpdatesPosition guildID positions role).map
          fun role => .role { role with position := (positions.lookup role.id).getD role.position },
        (tables.roles.filter fun role => role.id ∈ seen ∧ GuildTables.UpdatesPosition guildID positions role).length)
  | .deleteGuildRole guildID roleID =>
      match tables.getGuildRole guildID roleID with
      | none => ([], false)
      | some role =>
        if role.isDefault then ([], false)
        else (.role { role with deleted := true } :: bumpGuild tables guildID 1, true)
  | .addGuildMemberRole assignment =>
      (if assignment ∈ tables.memberRoles then []
        else .addMemberRole assignment :: bumpGuild tables assignment.guildID 1, ())
  | .deleteMemberRoles seen =>
      ((tables.memberRoles.filter (· ∈ seen)).map .dropMemberRole ++
        bumpGuilds tables ((tables.memberRoles.filter (· ∈ seen)).map MemberRole.guildID), ())
  | .upsertGuildChannelPermissionOverwrite overwrite =>
      match tables.overwrites.find? fun row => row.key = overwrite.key with
      | none => (.overwrite overwrite :: bumpGuild tables overwrite.guildID 1, ())
      | some row =>
        (.overwrite { row with allow := overwrite.allow, deny := overwrite.deny } :: bumpGuild tables row.guildID 1, ())
  | .deleteOverwrites seen =>
      ((tables.overwrites.filter (·.key ∈ seen)).map (fun row => .dropOverwrite row.key) ++
        bumpGuilds tables ((tables.overwrites.filter (·.key ∈ seen)).map Overwrite.guildID), ())
  | .createGuildMember guildID userID seenBan =>
      if seenBan ∨ tables.isMember guildID userID then ([], false)
      else (.member ⟨guildID, userID, false⟩ :: bumpGuild tables guildID 1, true)
  | .removeGuildMember guildID userID =>
      if tables.isMember guildID userID then (.member ⟨guildID, userID, true⟩ :: bumpGuild tables guildID 1, true)
      else ([], false)
  | .upsertGuildBan ban => ([.addBan ban], ())
  | .deleteGuildBan ban => if ban ∈ tables.bans then ([.dropBan ban], true) else ([], false)
  | .consumeGuildInvite code now =>
      match tables.getGuildInvite code with
      | none => ([], none)
      | some invite =>
        if GuildTables.Invite.Usable invite now then
          ([.invite { invite with uses := invite.uses + 1 }], some { invite with uses := invite.uses + 1 })
        else ([], none)
  | .transferGuildOwnership guildID ownerID newOwnerID =>
      match tables.getGuild guildID with
      | none => ([], false)
      | some guild =>
        if guild.ownerID = ownerID then
          ([.guild { guild with ownerID := newOwnerID, accessRevision := guild.accessRevision + 1 }], true)
        else ([], false)

inductive Statement where
  | query (q : Query)
  | write (w : Write)
deriving DecidableEq

@[reducible] def Statement.Reply : Statement → Type
  | .query q => q.Reply
  | .write w => w.Reply

def GuildDatabase.exec (limits : GuildLimits) (db : GuildDatabase) (tx : ℕ) :
    (statement : Statement) → Option (GuildDatabase × statement.Reply)
  | .query q => some (db, q.run limits (db.view (some tx)))
  | .write w => (GuildDatabase.apply tx db (w.changes (db.view (some tx))).1).map fun next =>
      (next, (w.changes (db.view (some tx))).2)

end Statements

section Handlers

/-- A handler, as its transaction sees the database. -/
abbrev Program := Script Statement.Reply GuildError

abbrev StatementLog := Log Statement.Reply

def query (q : Query) : Program q.Reply := Script.perform (Statement.query q)

def write (w : Write) : Program w.Reply := Script.perform (Statement.write w)

/-- A condition without statements. -/
def check (condition : Prop) [Decidable condition] (error : GuildError) : Program Unit :=
  .lift (require condition error)

def loadMemberAuthority (guildID userID : ℤ) : Program MemberAuthority := do
  let guild ← .lift (found (← query (.getGuildForMember guildID userID)))
  if guild.ownerID = userID then return memberAuthorityFromRoles guild [] userID
  else return memberAuthorityFromRoles guild (← query (.listGuildMemberRoles guildID userID)) userID

/-- The lock of the scope is taken before the count, which then has a fresh snapshot. -/
def checkResourceQuota (quota : ResourceQuota) : Program Unit := do
  write (.lockQuotaScope quota.scope)
  .lift (← query (.countResources quota))

namespace Transaction

variable (guildID actorUserID userID roleID : ℤ)

def createGuildRole (permissions : Permissions) : Program Unit := do
  .lift (validateMemberActorRequest guildID actorUserID)
  .lift (validatePermissions permissions)
  let authority ← loadMemberAuthority guildID actorUserID
  check (authority.has permissionManageRoles) .permissionDenied
  check (authority.canGrantPermissions permissions) .permissionDenied
  checkResourceQuota (.guildRoles guildID)
  let roles ← query (.listGuildRoles guildID)
  let position ← .lift (newRolePosition authority roles)
  let created ← write (.createGuildRole { id := roleID, guildID, permissions, position })
  check (created = true) .internal

def updateGuildRole (rename : Bool) (permissions : Option Permissions) : Program Unit := do
  .lift (validateRoleRequest guildID actorUserID roleID)
  .lift (validatePermissions (permissions.getD 0))
  check (rename ∨ permissions.isSome) (.invalidRequest "at least one role field is required")
  let authority ← loadMemberAuthority guildID actorUserID
  check (authority.has permissionManageRoles) .permissionDenied
  check (permissions.all authority.canGrantPermissions) .permissionDenied
  let role ← .lift (found (← query (.getGuildRole guildID roleID)))
  check (role.isDefault → rename = false) (.invalidRequest "default role name cannot be changed")
  check (role.isDefault ∨ authority.canManageRole role) .permissionDenied
  let updated ← write (.updateGuildRole guildID roleID permissions)
  check (updated = true) .notFound

def deleteGuildRole : Program Unit := do
  .lift (validateRoleRequest guildID actorUserID roleID)
  let authority ← loadMemberAuthority guildID actorUserID
  check (authority.has permissionManageRoles) .permissionDenied
  let role ← .lift (found (← query (.getGuildRole guildID roleID)))
  check (role.isDefault = false) (.invalidRequest "default role cannot be deleted")
  check (authority.canManageRole role) .permissionDenied
  write (.deleteMemberRoles (← query (.seenRoleAssignments guildID roleID)))
  write (.deleteOverwrites (← query (.seenOverwrites guildID .role roleID)))
  let deleted ← write (.deleteGuildRole guildID roleID)
  check (deleted = true) .notFound

def reorderGuildRoles (positions : List (ℤ × ℕ)) : Program Unit := do
  .lift (validateMemberActorRequest guildID actorUserID)
  check (positions ≠ []) (.invalidRequest "role positions are required")
  .lift (validateRolePositions positions [] [])
  let authority ← loadMemberAuthority guildID actorUserID
  check (authority.has permissionManageRoles) .permissionDenied
  let roles ← query (.listGuildRoles guildID)
  .lift (checkFinalPositions positions roles [])
  .lift (positions.forM (checkRoleMove authority roles))
  let seen ← query (.seenRoles guildID positions)
  let reordered ← write (.updateGuildRolePositions guildID positions seen)
  check (reordered = positions.length) .notFound

/-- One user in the loop over the users whose role changes. -/
def changeRoleMember (actor : MemberAuthority) (guildID roleID : ℤ) (add : Bool) (userID : ℤ) : Program Unit := do
  let target ← loadMemberAuthority guildID userID
  check (canManageMember actor target) .permissionDenied
  if add then write (.addGuildMemberRole ⟨guildID, userID, roleID⟩)
  else write (.deleteMemberRoles [⟨guildID, userID, roleID⟩])

def changeGuildRoleMembers (userIDs : List ℤ) (add : Bool) : Program Unit := do
  let actor ← loadMemberAuthority guildID actorUserID
  check (actor.has permissionManageRoles) .permissionDenied
  let role ← .lift (found (← query (.getGuildRole guildID roleID)))
  check (role.isDefault = false) (.invalidRequest "default role is assigned implicitly")
  check (actor.canManageRole role) .permissionDenied
  check (add → actor.canGrantPermissions role.permissions) .permissionDenied
  .each (changeRoleMember actor guildID roleID add) userIDs

def changeRoleMembers (userIDs : List ℤ) (add : Bool) : Program Unit := do
  let users ← .lift (normalizeRoleMemberUserIDs userIDs)
  .lift (validateRoleRequest guildID actorUserID roleID)
  changeGuildRoleMembers guildID actorUserID roleID users add

def changeGuildMemberRole (add : Bool) : Program Unit := do
  .lift (validateRoleRequest guildID actorUserID roleID)
  .lift (validateUserID userID)
  changeGuildRoleMembers guildID actorUserID roleID [userID] add

def validateOverwriteAppliesTo (authority : MemberAuthority) (guildID : ℤ) (appliesTo : AppliesTo) (appliesToID : ℤ) :
    Program Unit :=
  match appliesTo with
  | .role => do
    let role ← .lift (found (← query (.getGuildRole guildID appliesToID)))
    check (role.isDefault ∨ authority.canManageRole role) .permissionDenied
  | .member => do
    let target ← loadMemberAuthority guildID appliesToID
    check (canManageMember authority target) .permissionDenied

def upsertGuildChannelPermissionOverwrite (channelID actorUserID : ℤ) (appliesTo : AppliesTo) (appliesToID : ℤ)
    (allow deny : Permissions) : Program Unit := do
  .lift (validateOverwriteRequest channelID actorUserID appliesToID allow deny)
  let channel ← .lift (found (← query (.getGuildChannel channelID)))
  let authority ← loadMemberAuthority channel.guildID actorUserID
  check (authority.has permissionManageChannels ∧ authority.canGrantPermissions allow) .permissionDenied
  validateOverwriteAppliesTo authority channel.guildID appliesTo appliesToID
  checkResourceQuota (.channelOverwrites
    { channelID := channel.id, guildID := channel.guildID, appliesTo, appliesToID, allow, deny })
  write (.upsertGuildChannelPermissionOverwrite
    { channelID := channel.id, guildID := channel.guildID, appliesTo, appliesToID, allow, deny })

def deleteGuildChannelPermissionOverwrite (channelID actorUserID : ℤ) (appliesTo : AppliesTo) (appliesToID : ℤ) :
    Program Unit := do
  .lift (validateOverwriteRequest channelID actorUserID appliesToID 0 0)
  let channel ← .lift (found (← query (.getGuildChannel channelID)))
  let authority ← loadMemberAuthority channel.guildID actorUserID
  check (authority.has permissionManageChannels) .permissionDenied
  check (appliesTo = .role → appliesToID ≠ channel.guildID) (.invalidRequest "default role overwrite cannot be deleted")
  validateOverwriteAppliesTo authority channel.guildID appliesTo appliesToID
  write (.deleteOverwrites [(channel.id, appliesTo, appliesToID)])

/-- `CreateGuildMember`: no row means that the user is banned or a member already. -/
def createGuildMember : Program Unit := do
  let created ← write (.createGuildMember guildID userID (← query (.seenBan guildID userID)))
  check (created = true) .memberAlreadyExists

def addGuildMember : Program Unit := do
  .lift (validateMemberActorRequest guildID actorUserID)
  .lift (validateUserID userID)
  let current ← loadMemberAuthority guildID actorUserID
  check (current.has permissionManageMembers) .permissionDenied
  check ((← query (.getGuildBan guildID userID)) = false) .userBanned
  check ((← query (.getGuildMember guildID userID)) = none) .memberAlreadyExists
  checkResourceQuota (.joinedGuilds userID guildID)
  createGuildMember guildID userID

def joinGuildByInvite (code : String) (userID now : ℤ) : Program Unit := do
  .lift (validateUserID userID)
  let preview ← .lift ((← query (.getGuildInvite code)).elim (.error .inviteNotFound) .ok)
  check (GuildTables.Invite.Usable preview now) .inviteNotFound
  check ((← query (.getGuildMember preview.guildID userID)) = none) .memberAlreadyExists
  checkResourceQuota (.joinedGuilds userID preview.guildID)
  let invite ← .lift ((← write (.consumeGuildInvite code now)).elim (.error .inviteNotFound) .ok)
  check ((← query (.getGuild invite.guildID)).isSome) .inviteNotFound
  check ((← query (.getGuildBan invite.guildID userID)) = false) .userBanned
  createGuildMember invite.guildID userID

/-- The assignments, the overwrites and the row of a member who goes. -/
def departMember : Program Unit := do
  write (.deleteMemberRoles (← query (.seenMemberRoles guildID userID)))
  write (.deleteOverwrites (← query (.seenOverwrites guildID .member userID)))
  let removed ← write (.removeGuildMember guildID userID)
  check (removed = true) .notFound

def leaveGuild : Program Unit := do
  check (0 < guildID) (.invalidRequest "guild id is required")
  .lift (validateUserID userID)
  let guild ← .lift (found (← query (.getGuildForMember guildID userID)))
  check (guild.ownerID ≠ userID) (.invalidRequest "guild owner must transfer ownership before leaving")
  departMember guildID userID

def kickGuildMember : Program Unit := do
  .lift (validateMemberActorRequest guildID actorUserID)
  .lift (validateUserID userID)
  let actor ← loadMemberAuthority guildID actorUserID
  check (actor.has permissionKickMembers) .permissionDenied
  let target ← loadMemberAuthority guildID userID
  check (target.isOwner = false) (.invalidRequest "guild owner cannot be kicked")
  check (canManageMember actor target) .permissionDenied
  departMember guildID userID

/-- A user who is to be banned departs, once the actor is known to stand above. -/
def departForBan (actor : MemberAuthority) (guildID userID : ℤ) (guild : GuildRow) (roles : List Role) :
    Program Unit := do
  check (canManageMember actor (memberAuthorityFromRoles guild roles userID)) .permissionDenied
  departMember guildID userID

/-- The authority of the user is loaded; who is not a member has nothing to leave. -/
def removeForBan (actor : MemberAuthority) (guildID userID : ℤ) : Option GuildRow → Program Unit
  | none => pure ()
  | some guild =>
    if guild.ownerID = userID then departForBan actor guildID userID guild []
    else do departForBan actor guildID userID guild (← query (.listGuildMemberRoles guildID userID))

def banGuildMember : Program Unit := do
  .lift (validateMemberActorRequest guildID actorUserID)
  .lift (validateUserID userID)
  check (userID ≠ actorUserID) (.invalidRequest "actor cannot ban themselves")
  let actor ← loadMemberAuthority guildID actorUserID
  check (actor.has permissionBanMembers) .permissionDenied
  check (actor.guild.ownerID ≠ userID) (.invalidRequest "guild owner cannot be banned")
  removeForBan actor guildID userID (← query (.getGuildForMember guildID userID))
  write (.upsertGuildBan ⟨guildID, userID⟩)

def unbanGuildMember : Program Unit := do
  .lift (validateMemberActorRequest guildID actorUserID)
  .lift (validateUserID userID)
  let actor ← loadMemberAuthority guildID actorUserID
  check (actor.has permissionBanMembers) .permissionDenied
  let deleted ← write (.deleteGuildBan ⟨guildID, userID⟩)
  check (deleted = true) .notFound

def transferGuildOwnership (newOwnerID : ℤ) : Program Unit := do
  .lift (validateMemberActorRequest guildID actorUserID)
  check (0 < newOwnerID) (.invalidRequest "new owner id is required")
  check (newOwnerID ≠ actorUserID) (.invalidRequest "new owner must differ from current owner")
  let guild ← .lift (found (← query (.getGuildForMember guildID actorUserID)))
  check (guild.ownerID = actorUserID) .permissionDenied
  check ((← query (.getGuildMember guildID newOwnerID)).isSome) .notFound
  checkResourceQuota (.ownedGuilds newOwnerID)
  let updated ← write (.transferGuildOwnership guildID actorUserID newOwnerID)
  check (updated = true) .notFound

end Transaction

/-- The requests whose transactions meet on members, roles, bans and overwrites. -/
inductive GuildRequest where
  | createRole (guildID actorUserID roleID : ℤ) (permissions : Permissions)
  | updateRole (guildID actorUserID roleID : ℤ) (rename : Bool) (permissions : Option Permissions)
  | deleteRole (guildID actorUserID roleID : ℤ)
  | reorderRoles (guildID actorUserID : ℤ) (positions : List (ℤ × ℕ))
  | changeRoleMembers (guildID actorUserID roleID : ℤ) (userIDs : List ℤ) (add : Bool)
  | changeMemberRole (guildID actorUserID userID roleID : ℤ) (add : Bool)
  | upsertOverwrite (channelID actorUserID : ℤ) (appliesTo : AppliesTo) (appliesToID : ℤ) (allow deny : Permissions)
  | deleteOverwrite (channelID actorUserID : ℤ) (appliesTo : AppliesTo) (appliesToID : ℤ)
  | addMember (guildID actorUserID userID : ℤ)
  | joinByInvite (code : String) (userID now : ℤ)
  | leave (guildID userID : ℤ)
  | kick (guildID actorUserID userID : ℤ)
  | ban (guildID actorUserID userID : ℤ)
  | unban (guildID actorUserID userID : ℤ)
  | transferOwnership (guildID actorUserID newOwnerID : ℤ)
deriving DecidableEq, Repr

def GuildRequest.script : GuildRequest → Program Unit
  | createRole guildID actor roleID permissions => Transaction.createGuildRole guildID actor roleID permissions
  | updateRole guildID actor roleID rename permissions =>
      Transaction.updateGuildRole guildID actor roleID rename permissions
  | deleteRole guildID actor roleID => Transaction.deleteGuildRole guildID actor roleID
  | reorderRoles guildID actor positions => Transaction.reorderGuildRoles guildID actor positions
  | changeRoleMembers guildID actor roleID userIDs add => Transaction.changeRoleMembers guildID actor roleID userIDs add
  | changeMemberRole guildID actor userID roleID add => Transaction.changeGuildMemberRole guildID actor userID roleID add
  | upsertOverwrite channelID actor appliesTo appliesToID allow deny =>
      Transaction.upsertGuildChannelPermissionOverwrite channelID actor appliesTo appliesToID allow deny
  | deleteOverwrite channelID actor appliesTo appliesToID =>
      Transaction.deleteGuildChannelPermissionOverwrite channelID actor appliesTo appliesToID
  | addMember guildID actor userID => Transaction.addGuildMember guildID actor userID
  | joinByInvite code userID now => Transaction.joinGuildByInvite code userID now
  | leave guildID userID => Transaction.leaveGuild guildID userID
  | kick guildID actor userID => Transaction.kickGuildMember guildID actor userID
  | ban guildID actor userID => Transaction.banGuildMember guildID actor userID
  | unban guildID actor userID => Transaction.unbanGuildMember guildID actor userID
  | transferOwnership guildID actor newOwnerID => Transaction.transferGuildOwnership guildID actor newOwnerID

end Handlers

/-- The guild service: a transaction for every request. -/
def guildService (limits : GuildLimits) : Service GuildDatabase GuildRequest Statement.Reply GuildError Unit where
  script := GuildRequest.script
  exec := GuildDatabase.exec limits
  commit := GuildDatabase.commit
  rollback := GuildDatabase.rollback

abbrev GuildTask := Task GuildRequest Statement.Reply GuildError Unit

abbrev GuildServiceState := ServiceState GuildDatabase GuildRequest Statement.Reply GuildError Unit

end Cordis.Guild
