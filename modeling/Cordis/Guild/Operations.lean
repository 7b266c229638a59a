import Cordis.Guild.EventStream
import Cordis.Guild.Statements
import Cordis.Session.Dispatch

/-! # The operations on a guild

The calls that change a guild's roles, channels, overwrites, members and owner, each as the transaction
it runs, by itself: the checks, the statements and the events it enqueues, in this order. The ids of new
rows are given with the call. Idempotency keys are left out: a call that is replayed under its key
changes nothing here and enqueues nothing.
-/

namespace Cordis.Guild

open Go (require)
open GuildTables (PositionUpdate placement)

/-- An event as it is enqueued: its type, its guild, and what the dispatch reads of its payload. -/
structure AccessEvent where
  type : String
  guildID : ℤ
  routing : Session.EventRouting := {}
deriving DecidableEq, Repr

/-- What a committed transaction leaves: the tables, and the events in the outbox. -/
structure Outcome where
  tables : GuildTables
  events : List AccessEvent
deriving DecidableEq, Repr

variable (limits : GuildLimits) (tables : GuildTables)

section Events

variable (guildID userID : ℤ)

def newGuildUpdatedEvent (ownerID : ℤ) : AccessEvent :=
  { type := "guild.updated", guildID, routing := { id := guildID, ownerID } }

def newGuildDeletedEvent : AccessEvent :=
  { type := eventTypeGuildDeleted, guildID, routing := { id := guildID } }

def newGuildMemberJoinedEvent : AccessEvent :=
  { type := "guild.member.joined", guildID, routing := { userID } }

def newGuildMemberRemovedEvent : AccessEvent :=
  { type := "guild.member.removed", guildID, routing := { userID } }

def newGuildMemberBannedEvent : AccessEvent :=
  { type := "guild.member.banned", guildID, routing := { userID } }

def newGuildMemberRolesUpdatedEvent : AccessEvent :=
  { type := "guild.member.roles.updated", guildID, routing := { userID } }

def newGuildRoleCreatedEvent (roleID : ℤ) : AccessEvent :=
  { type := "guild.role.created", guildID, routing := { id := roleID } }

def newGuildRoleUpdatedEvent (roleID : ℤ) : AccessEvent :=
  { type := "guild.role.updated", guildID, routing := { id := roleID } }

def newGuildRoleDeletedEvent (roleID : ℤ) : AccessEvent :=
  { type := "guild.role.deleted", guildID, routing := { id := roleID } }

def newGuildChannelCreatedEvent (channel : Channel) : AccessEvent :=
  { type := "guild.channel.created", guildID := channel.guildID, routing := { id := channel.id } }

def newGuildChannelUpdatedEvent (channel : Channel) : AccessEvent :=
  { type := "guild.channel.updated", guildID := channel.guildID, routing := { id := channel.id } }

def newGuildChannelDeletedEvent (channel : Channel) : AccessEvent :=
  { type := "guild.channel.deleted", guildID := channel.guildID, routing := { id := channel.id } }

def newGuildChannelOverwriteUpdatedEvent (overwrite : Overwrite) : AccessEvent :=
  { type := "guild.channel.overwrite.updated", guildID := overwrite.guildID
    routing := { channelID := overwrite.channelID, appliesTo := GuildTables.appliesToCode overwrite.appliesTo
                 appliesToID := overwrite.appliesToID } }

def newGuildChannelOverwriteDeletedEvent (channelID : ℤ) (appliesTo : AppliesTo) (appliesToID : ℤ) : AccessEvent :=
  { type := "guild.channel.overwrite.deleted", guildID
    routing := { channelID, appliesTo := GuildTables.appliesToCode appliesTo, appliesToID } }

/-- The revision for an event: that of its live guild, except for a deletion. -/
def stampRevision (event : AccessEvent) : Except GuildError ℤ :=
  if event.type = eventTypeGuildDeleted then .ok event.routing.accessRevision
  else (found (tables.getGuild event.guildID)).map fun guild => (guild.accessRevision : ℤ)

def stampEvents : List AccessEvent → Except GuildError (List AccessEvent)
  | [] => .ok []
  | event :: events => do
    let revision ← stampRevision tables event
    let rest ← stampEvents events
    return { event with routing := { event.routing with accessRevision := revision } } :: rest

def enqueueEvents (events : List AccessEvent) : Except GuildError Outcome :=
  (stampEvents tables events).map fun stamped => { tables, events := stamped }

theorem tables_of_enqueueEvents {tables : GuildTables} {events : List AccessEvent} {outcome : Outcome}
    (enqueued : enqueueEvents tables events = .ok outcome) : outcome.tables = tables := by
  obtain ⟨_, _, rfl⟩ := Go.map_eq_ok.mp enqueued
  rfl

end Events

section Validation

variable (guildID actorUserID roleID : ℤ)

def validateMemberActorRequest : Except GuildError Unit := do
  require (0 < guildID) (.invalidRequest "guild id is required")
  require (0 < actorUserID) (.invalidRequest "actor user id is required")

def validateUserID (userID : ℤ) : Except GuildError Unit := require (0 < userID) (.invalidRequest "user id is required")

def validateRoleRequest : Except GuildError Unit := do
  validateMemberActorRequest guildID actorUserID
  require (0 < roleID) (.invalidRequest "role id is required")

def validatePermissions (permissions : Permissions) : Except GuildError Unit := do
  require (permissions.toNat < 2 ^ 63) (.invalidRequest "permissions exceed storage range")
  require (permissions &&& ~~~allGuildPermissions = 0) (.invalidRequest "permissions contain unsupported bits")

def maxGuildRoleMemberBatch : ℕ := 100

/-- The users without repetitions, in the order in which they come first. -/
def firstOccurrences (seen : List ℤ) : List ℤ → List ℤ
  | [] => []
  | userID :: userIDs =>
      if userID ∈ seen then firstOccurrences seen userIDs else userID :: firstOccurrences (userID :: seen) userIDs

def normalizeRoleMemberUserIDs (userIDs : List ℤ) : Except GuildError (List ℤ) := do
  require (userIDs ≠ []) (.invalidRequest "user ids are required")
  require (userIDs.length ≤ maxGuildRoleMemberBatch) (.invalidRequest "too many user ids")
  require (∀ userID ∈ userIDs, 0 < userID) (.invalidRequest "user id is required")
  return firstOccurrences [] userIDs

def validateChannelActorRequest (channelID actorUserID : ℤ) : Except GuildError Unit := do
  require (0 < channelID) (.invalidRequest "channel id is required")
  require (0 < actorUserID) (.invalidRequest "actor user id is required")

/-- A revision that is absent is zero. -/
def validateExpectedChannelLayoutRevision (revision : ℤ) : Except GuildError Unit :=
  require (0 < revision) (.invalidRequest "expected channel layout revision is required")

def requireGuildChannelLayoutRevision (expected : ℤ) : Except GuildError Unit := do
  let guild ← found (tables.getGuild guildID)
  require ((guild.channelLayoutRevision : ℤ) = expected) .channelLayoutConflict

/-- Only a request with a parent depends on the layout. -/
def requireLayoutForParent (parentID : Option ℤ) (expected : ℤ) : Except GuildError Unit :=
  if parentID.isSome then requireGuildChannelLayoutRevision tables guildID expected else .ok ()

def validateChannelParent (type : ChannelType) (parentID : ℤ) : Except GuildError Unit :=
  if parentID = 0 then .ok ()
  else do
    require (0 < parentID) (.invalidRequest "parent id must not be negative")
    require (type ≠ .category) (.invalidRequest "category channels cannot have a parent")
    let parent ← found (tables.getGuildChannel parentID)
    require (parent.guildID = guildID ∧ parent.type = .category)
      (.invalidRequest "parent channel must be a category in the same guild")

def validateOverwriteRequest (channelID actorUserID appliesToID : ℤ) (allow deny : Permissions) :
    Except GuildError Unit := do
  validateChannelActorRequest channelID actorUserID
  require (0 < appliesToID) (.invalidRequest "overwrite applies_to_id is required")
  require (allow &&& deny = 0) (.invalidRequest "overwrite allow and deny must not overlap")
  require ((allow ||| deny) &&& ~~~allChannelPermissions = 0)
    (.invalidRequest "overwrite contains non-channel permission bits")

def validateOverwriteAppliesTo (authority : MemberAuthority) (guildID : ℤ)
    (appliesTo : AppliesTo) (appliesToID : ℤ) : Except GuildError Unit :=
  match appliesTo with
  | .role => do
    let role ← found (tables.getGuildRole guildID appliesToID)
    require (role.isDefault ∨ authority.canManageRole role) .permissionDenied
  | .member => do
    let target ← tables.loadMemberAuthority guildID appliesToID
    require (canManageMember authority target) .permissionDenied

/-- An overwrite that exists may always be replaced. -/
def checkOverwriteQuota (overwrite : Overwrite) : Except GuildError Unit :=
  require (tables.overwrites.any (GuildTables.SameTarget overwrite) ∨
    (tables.overwrites.filter fun row => row.channelID = overwrite.channelID).length < limits.overwrites)
    .resourceLimitExceeded

/-- A user who is in the guild already is refused before the guilds are counted. -/
def checkJoinedQuota (userID : ℤ) : Except GuildError Unit := do
  require (tables.isMember guildID userID = false) .memberAlreadyExists
  require ((tables.guildsOf userID).length < limits.joinedGuilds) .resourceLimitExceeded

end Validation

section Roles

def nextRolePosition (roles : List Role) : ℕ :=
  if roles.foldl (fun highest role => max highest role.position) 0 = maxInt32 then maxInt32
  else roles.foldl (fun highest role => max highest role.position) 0 + 1

/-- The highest free position up to the bound; zero if there is none. -/
def nextManagedRolePosition (roles : List Role) : ℕ → ℕ
  | 0 => 0
  | bound + 1 => if bound + 1 ∈ roles.map Role.position then nextManagedRolePosition roles bound else bound + 1

def newRolePosition (authority : MemberAuthority) (roles : List Role) : Except GuildError ℕ :=
  if authority.isOwner then .ok (nextRolePosition roles)
  else if 0 < nextManagedRolePosition roles (authority.highestRole - 1) then
    .ok (nextManagedRolePosition roles (authority.highestRole - 1))
  else .error .permissionDenied

variable (guildID actorUserID roleID : ℤ)

def createGuildRole (permissions : Permissions) : Except GuildError Outcome := do
  validateMemberActorRequest guildID actorUserID
  validatePermissions permissions
  let authority ← tables.loadMemberAuthority guildID actorUserID
  require (authority.has permissionManageRoles) .permissionDenied
  require (authority.canGrantPermissions permissions) .permissionDenied
  require ((tables.listGuildRoles guildID).length < limits.roles) .resourceLimitExceeded
  let position ← newRolePosition authority (tables.listGuildRoles guildID)
  let changed ← tables.createGuildRole { id := roleID, guildID, permissions, position }
  enqueueEvents changed [newGuildRoleCreatedEvent guildID roleID]

/-- The default role can be changed by whoever manages roles, except for its name. -/
def updateGuildRole (rename : Bool) (permissions : Option Permissions) : Except GuildError Outcome := do
  validateRoleRequest guildID actorUserID roleID
  validatePermissions (permissions.getD 0)
  require (rename ∨ permissions.isSome) (.invalidRequest "at least one role field is required")
  let authority ← tables.loadMemberAuthority guildID actorUserID
  require (authority.has permissionManageRoles) .permissionDenied
  require (∀ requested ∈ permissions, authority.canGrantPermissions requested) .permissionDenied
  let role ← found (tables.getGuildRole guildID roleID)
  require (role.isDefault → rename = false) (.invalidRequest "default role name cannot be changed")
  require (role.isDefault ∨ authority.canManageRole role) .permissionDenied
  let changed ← tables.updateGuildRole guildID roleID permissions
  enqueueEvents changed [newGuildRoleUpdatedEvent guildID roleID]

def deleteGuildRole : Except GuildError Outcome := do
  validateRoleRequest guildID actorUserID roleID
  let authority ← tables.loadMemberAuthority guildID actorUserID
  require (authority.has permissionManageRoles) .permissionDenied
  let role ← found (tables.getGuildRole guildID roleID)
  require (role.isDefault = false) (.invalidRequest "default role cannot be deleted")
  require (authority.canManageRole role) .permissionDenied
  let changed ← ((tables.deleteGuildRoleAssignments guildID roleID).deleteGuildChannelPermissionOverwritesForAppliesTo
    guildID .role roleID).deleteGuildRole guildID roleID
  enqueueEvents changed [newGuildRoleDeletedEvent guildID roleID]

/-- The requested positions, with the roles and the positions that came before. -/
def validateRolePositions : List (ℤ × ℕ) → List ℤ → List ℕ → Except GuildError Unit
  | [], _, _ => .ok ()
  | (roleID, position) :: items, roleIDs, usedPositions => do
    require (0 < roleID ∧ 0 < position) (.invalidRequest "role id and position must be positive")
    require (roleID ∉ roleIDs) (.invalidRequest "role id must be unique")
    require (position ∉ usedPositions) (.invalidRequest "role position must be unique")
    validateRolePositions items (roleID :: roleIDs) (position :: usedPositions)

/-- No two roles are to have one position; `taken` has the positions of the roles before. -/
def checkFinalPositions (positions : List (ℤ × ℕ)) : List Role → List (ℕ × ℤ) → Except GuildError Unit
  | [], _ => .ok ()
  | role :: roles, taken =>
      if role.isDefault then checkFinalPositions positions roles taken
      else do
        require (∀ other ∈ taken.lookup ((positions.lookup role.id).getD role.position), other = role.id)
          (.invalidRequest "role positions conflict with existing roles")
        checkFinalPositions positions roles (((positions.lookup role.id).getD role.position, role.id) :: taken)

def checkRoleMove (authority : MemberAuthority) (roles : List Role) (request : ℤ × ℕ) : Except GuildError Unit := do
  let role ← found (roles.find? fun role => role.id = request.1)
  require (role.isDefault = false ∧ authority.canManageRole role) .permissionDenied
  require (authority.isOwner ∨ request.2 < authority.highestRole) .permissionDenied

def reorderGuildRoles (positions : List (ℤ × ℕ)) : Except GuildError Outcome := do
  validateMemberActorRequest guildID actorUserID
  require (positions ≠ []) (.invalidRequest "role positions are required")
  validateRolePositions positions [] []
  let authority ← tables.loadMemberAuthority guildID actorUserID
  require (authority.has permissionManageRoles) .permissionDenied
  checkFinalPositions positions (tables.listGuildRoles guildID) []
  positions.forM (checkRoleMove authority (tables.listGuildRoles guildID))
  require ((tables.roles.filter (GuildTables.UpdatesPosition guildID positions)).length = positions.length) .notFound
  enqueueEvents (tables.updateGuildRolePositions guildID positions)
    (positions.map fun request => newGuildRoleUpdatedEvent guildID request.1)

/-- One user in the loop over the users whose role changes. -/
def changeRoleMember (actor : MemberAuthority) (guildID roleID : ℤ) (add : Bool) (tables : GuildTables) (userID : ℤ) :
    Except GuildError GuildTables := do
  let target ← tables.loadMemberAuthority guildID userID
  require (canManageMember actor target) .permissionDenied
  return if add then tables.addGuildMemberRole ⟨guildID, userID, roleID⟩
    else tables.removeGuildMemberRole ⟨guildID, userID, roleID⟩

def changeGuildRoleMembers (userIDs : List ℤ) (add : Bool) : Except GuildError Outcome := do
  let actor ← tables.loadMemberAuthority guildID actorUserID
  require (actor.has permissionManageRoles) .permissionDenied
  let role ← found (tables.getGuildRole guildID roleID)
  require (role.isDefault = false) (.invalidRequest "default role is assigned implicitly")
  require (actor.canManageRole role) .permissionDenied
  require (add → actor.canGrantPermissions role.permissions) .permissionDenied
  let changed ← userIDs.foldlM (changeRoleMember actor guildID roleID add) tables
  enqueueEvents changed (userIDs.map (newGuildMemberRolesUpdatedEvent guildID))

/-- `AddGuildRoleMembers` and `RemoveGuildRoleMembers`. -/
def changeRoleMembers (userIDs : List ℤ) (add : Bool) : Except GuildError Outcome := do
  let users ← normalizeRoleMemberUserIDs userIDs
  validateRoleRequest guildID actorUserID roleID
  changeGuildRoleMembers tables guildID actorUserID roleID users add

/-- `AddGuildMemberRole` and `RemoveGuildMemberRole`. -/
def changeGuildMemberRole (userID roleID : ℤ) (add : Bool) : Except GuildError Outcome := do
  validateRoleRequest guildID actorUserID roleID
  validateUserID userID
  changeGuildRoleMembers tables guildID actorUserID roleID [userID] add

end Roles

section Layout

def isUncategorizedChannel (type : ChannelType) (parentID : ℤ) : Bool := parentID = 0 ∧ type ≠ .category

variable (channels : List Channel)

def nextGuildChannelPosition : ℕ :=
  channels.foldl (fun position channel => if position ≤ channel.position then channel.position + 1 else position) 0

def uncategorizedChannelInsertPosition : ℕ :=
  channels.foldl (fun position channel =>
    if !isUncategorizedChannel channel.type channel.parentID && channel.position < position then channel.position
    else position) (nextGuildChannelPosition channels)

/-- The channels from the position on move up by one. -/
def shiftUpdates (position : ℕ) : List PositionUpdate :=
  (channels.filter fun channel => position ≤ channel.position).map fun channel =>
    ⟨channel.id, channel.position + 1, channel.parentID⟩

def resolvedChannelParentID (parentIDs : List (ℤ × ℤ)) (channel : Channel) : ℤ :=
  (parentIDs.lookup channel.id).getD channel.parentID

/-- The updates that bring the channels into the order, with their parents. -/
def orderUpdates (parentOf : Channel → ℤ) (ordered : List Channel) : List PositionUpdate :=
  ordered.zipIdx.filterMap fun (channel, position) =>
    if channel.position = position ∧ channel.parentID = parentOf channel then none
    else some ⟨channel.id, position, parentOf channel⟩

/-- The requested channels at their places. -/
def placeRequested (channels : List Channel) :
    List (ℤ × ℕ) → List (Option Channel) → Except GuildError (List (Option Channel))
  | [], ordered => .ok ordered
  | (channelID, position) :: positions, ordered => do
    require (position < channels.length) (.invalidRequest "channel position is out of range")
    let channel ← found (channels.find? fun channel => channel.id = channelID)
    require (ordered[position]? = some none) (.invalidRequest "channel positions conflict")
    placeRequested channels positions (ordered.set position (some channel))

/-- The other channels in the places that are left, in their order. -/
def fillPlaces : List (Option Channel) → List Channel → List Channel
  | [], _ => []
  | some channel :: ordered, others => channel :: fillPlaces ordered others
  | none :: ordered, channel :: others => channel :: fillPlaces ordered others
  | none :: ordered, [] => fillPlaces ordered []

/-- Channels without a category come first. -/
def uncategorizedFirst (parentOf : Channel → ℤ) (ordered : List Channel) : List Channel :=
  ordered.filter (fun channel => isUncategorizedChannel channel.type (parentOf channel)) ++
    ordered.filter (fun channel => !isUncategorizedChannel channel.type (parentOf channel))

def normalizeGuildChannelPlacements (positions : List (ℤ × ℕ)) (parentIDs : List (ℤ × ℤ)) :
    Except GuildError (List PositionUpdate) :=
  (placeRequested channels positions (List.replicate channels.length none)).map fun ordered =>
    orderUpdates (resolvedChannelParentID parentIDs) (uncategorizedFirst (resolvedChannelParentID parentIDs)
      (fillPlaces ordered (channels.filter fun channel => (positions.lookup channel.id).isNone)))

/-- Where a channel goes among the others when its parent changes: before the first channel that is in a
category or is one, or behind its new category and the channels in it. -/
def parentDestination (remaining : List Channel) (parentID : ℤ) : Except GuildError ℕ :=
  if parentID = 0 then
    .ok ((remaining.findIdx? fun channel => !isUncategorizedChannel channel.type channel.parentID).getD remaining.length)
  else
    match (remaining.zipIdx.filter fun (channel, _) => channel.id = parentID ∨ channel.parentID = parentID).getLast? with
    | some (_, index) => .ok (index + 1)
    | none => .error .notFound

def channelParentMoveUpdates (channelID parentID : ℤ) : Except GuildError (List PositionUpdate) := do
  let moving ← found (channels.find? fun channel => channel.id = channelID)
  let remaining := channels.filter fun channel => channel.id ≠ channelID
  let destination ← parentDestination remaining parentID
  return orderUpdates (fun channel => if channel.id = moving.id then parentID else channel.parentID)
    (remaining.take destination ++ moving :: remaining.drop destination)

end Layout

section Channels

/-- Every update has found its channel. -/
def requirePlaced (guildID : ℤ) (updates : List PositionUpdate) : Except GuildError Unit :=
  require ((tables.placedChannels guildID updates).length = updates.length) .notFound

/-- The shifts that make room for a new channel, and its position. -/
def newChannelPlace (channels : List Channel) (type : ChannelType) (parentID : ℤ) : ℕ × List PositionUpdate :=
  if type ≠ .category ∧ parentID = 0 then
    (uncategorizedChannelInsertPosition channels,
      shiftUpdates channels (uncategorizedChannelInsertPosition channels))
  else (nextGuildChannelPosition channels, [])

def createGuildChannel (guildID actorUserID channelID : ℤ)
    (type : ChannelType) (parentID expected : ℤ) : Except GuildError Outcome := do
  validateMemberActorRequest guildID actorUserID
  validateExpectedChannelLayoutRevision expected
  let authority ← tables.loadMemberAuthority guildID actorUserID
  require (authority.has permissionManageChannels) .permissionDenied
  requireGuildChannelLayoutRevision tables guildID expected
  let channels := tables.listGuildChannels guildID
  require (channels.length < limits.channels) .resourceLimitExceeded
  validateChannelParent tables guildID type parentID
  let place := newChannelPlace channels type parentID
  let channel : Channel := { id := channelID, guildID, type, position := place.1, parentID }
  let everyone : Overwrite := { channelID, guildID, appliesTo := .role, appliesToID := guildID }
  requirePlaced tables guildID place.2
  let created ← (tables.updateGuildChannelPositions guildID place.2).createGuildChannel channel
  checkOverwriteQuota limits created everyone
  let changed ← (created.upsertGuildChannelPermissionOverwrite everyone).advanceGuildChannelLayoutRevision guildID expected
  enqueueEvents changed ((tables.placedChannels guildID place.2).map newGuildChannelUpdatedEvent ++
    [newGuildChannelCreatedEvent channel, newGuildChannelOverwriteUpdatedEvent everyone])

/-- The move of a channel to another parent, with the channels that are moved by it. -/
def moveChannel (channel : Channel) (parentID expected : ℤ) : Except GuildError (GuildTables × List Channel) := do
  let updates ← channelParentMoveUpdates (tables.listGuildChannels channel.guildID) channel.id parentID
  requirePlaced tables channel.guildID updates
  require (channel.id ∈ (tables.placedChannels channel.guildID updates).map Channel.id) .notFound
  let changed ← (tables.updateGuildChannelPositions channel.guildID updates).advanceGuildChannelLayoutRevision
    channel.guildID expected
  return (changed, tables.placedChannels channel.guildID updates)

variable (channelID actorUserID : ℤ)

/-- Only a parent that is another one moves the channel; `rename` stands for a new name or topic. -/
def updateGuildChannel (rename : Bool) (parentID : Option ℤ) (expected : ℤ) : Except GuildError Outcome := do
  validateChannelActorRequest channelID actorUserID
  require (∀ parent ∈ parentID, 0 ≤ parent) (.invalidRequest "parent id must not be negative")
  require (parentID.isSome → 0 < expected) (.invalidRequest "expected channel layout revision is required")
  require (rename ∨ parentID.isSome) (.invalidRequest "at least one channel field is required")
  let channel ← found (tables.getGuildChannel channelID)
  requireLayoutForParent tables channel.guildID parentID expected
  let authority ← tables.loadMemberAuthority channel.guildID actorUserID
  require (authority.has permissionManageChannels) .permissionDenied
  validateChannelParent tables channel.guildID channel.type (parentID.getD 0)
  if parentID.getD channel.parentID = channel.parentID then
    enqueueEvents tables [newGuildChannelUpdatedEvent channel]
  else
    let (changed, moved) ← moveChannel tables channel (parentID.getD 0) expected
    enqueueEvents changed (moved.map newGuildChannelUpdatedEvent)

/-- The channels in a category that goes have no parent any more. -/
def detachChildren (channel : Channel) : GuildTables :=
  if channel.type = .category then tables.clearGuildChannelParent channel.guildID channel.id else tables

def deleteGuildChannel (expected : ℤ) : Except GuildError Outcome := do
  validateChannelActorRequest channelID actorUserID
  validateExpectedChannelLayoutRevision expected
  let channel ← found (tables.getGuildChannel channelID)
  let authority ← tables.loadMemberAuthority channel.guildID actorUserID
  require (authority.has permissionManageChannels) .permissionDenied
  requireGuildChannelLayoutRevision tables channel.guildID expected
  let children := if channel.type = .category then
      (tables.listGuildChannels channel.guildID).filter fun child => child.parentID = channel.id
    else []
  let deleted ← ((detachChildren tables channel).deleteGuildChannelPermissionOverwrites channel.id).deleteGuildChannel channel.id
  let changed ← deleted.advanceGuildChannelLayoutRevision channel.guildID expected
  enqueueEvents changed (newGuildChannelDeletedEvent channel :: children.map newGuildChannelUpdatedEvent)

structure ChannelPlacement where
  channelID : ℤ
  position : ℤ
  parentID : Option ℤ := none
deriving DecidableEq, Repr

/-- The requested places, with the channels that came before. -/
def validateChannelPlacements : List ChannelPlacement → List ℤ → Except GuildError Unit
  | [], _ => .ok ()
  | item :: items, channelIDs => do
    require (0 < item.channelID ∧ 0 ≤ item.position ∧ ∀ parentID ∈ item.parentID, 0 ≤ parentID)
      (.invalidRequest "channel id and position are invalid")
    require (item.channelID ∉ channelIDs) (.invalidRequest "channel id must be unique")
    validateChannelPlacements items (item.channelID :: channelIDs)

/-- The parent that a requested place asks for, if the channel may have it. -/
def requestedParent (guildID : ℤ) (channels : List Channel) (item : ChannelPlacement) :
    Except GuildError (ℤ × ℤ) := do
  let channel ← found (channels.find? fun channel => channel.id = item.channelID)
  if let some parentID := item.parentID then validateChannelParent tables guildID channel.type parentID
  return (item.channelID, item.parentID.getD channel.parentID)

def reorderGuildChannels (guildID actorUserID : ℤ) (items : List ChannelPlacement)
    (expected : ℤ) : Except GuildError Outcome := do
  validateMemberActorRequest guildID actorUserID
  require (items ≠ []) (.invalidRequest "channel positions are required")
  validateExpectedChannelLayoutRevision expected
  validateChannelPlacements items []
  let authority ← tables.loadMemberAuthority guildID actorUserID
  require (authority.has permissionManageChannels) .permissionDenied
  requireGuildChannelLayoutRevision tables guildID expected
  let channels := tables.listGuildChannels guildID
  let parentIDs ← items.mapM (requestedParent tables guildID channels)
  let updates ← normalizeGuildChannelPlacements channels
    (items.map fun item => (item.channelID, item.position.toNat)) parentIDs
  if updates = [] then return { tables, events := [] }
  requirePlaced tables guildID updates
  let changed ← (tables.updateGuildChannelPositions guildID updates).advanceGuildChannelLayoutRevision guildID expected
  enqueueEvents changed ((tables.placedChannels guildID updates).map newGuildChannelUpdatedEvent)

def upsertGuildChannelPermissionOverwrite (appliesTo : AppliesTo) (appliesToID : ℤ)
    (allow deny : Permissions) : Except GuildError Outcome := do
  validateOverwriteRequest channelID actorUserID appliesToID allow deny
  let channel ← found (tables.getGuildChannel channelID)
  let authority ← tables.loadMemberAuthority channel.guildID actorUserID
  require (authority.has permissionManageChannels ∧ authority.canGrantPermissions allow) .permissionDenied
  validateOverwriteAppliesTo tables authority channel.guildID appliesTo appliesToID
  let overwrite : Overwrite :=
    { channelID := channel.id, guildID := channel.guildID, appliesTo, appliesToID, allow, deny }
  checkOverwriteQuota limits tables overwrite
  enqueueEvents (tables.upsertGuildChannelPermissionOverwrite overwrite)
    [newGuildChannelOverwriteUpdatedEvent overwrite]

def deleteGuildChannelPermissionOverwrite (appliesTo : AppliesTo)
    (appliesToID : ℤ) : Except GuildError Outcome := do
  validateOverwriteRequest channelID actorUserID appliesToID 0 0
  let channel ← found (tables.getGuildChannel channelID)
  let authority ← tables.loadMemberAuthority channel.guildID actorUserID
  require (authority.has permissionManageChannels) .permissionDenied
  require (appliesTo = .role → appliesToID ≠ channel.guildID)
    (.invalidRequest "default role overwrite cannot be deleted")
  validateOverwriteAppliesTo tables authority channel.guildID appliesTo appliesToID
  enqueueEvents (tables.deleteGuildChannelPermissionOverwrite channel.id appliesTo appliesToID)
    [newGuildChannelOverwriteDeletedEvent channel.guildID channelID appliesTo appliesToID]

end Channels

section Members

variable (guildID actorUserID userID : ℤ)

def addGuildMember : Except GuildError Outcome := do
  validateMemberActorRequest guildID actorUserID
  validateUserID userID
  let authority ← tables.loadMemberAuthority guildID actorUserID
  require (authority.has permissionManageMembers) .permissionDenied
  require (⟨guildID, userID⟩ ∉ tables.bans) .userBanned
  checkJoinedQuota limits tables guildID userID
  let changed ← tables.createGuildMember guildID userID
  enqueueEvents changed [newGuildMemberJoinedEvent guildID userID]

def joinGuildByInvite (code : String) (userID now : ℤ) : Except GuildError Outcome := do
  validateUserID userID
  let invite ← (tables.getGuildInvite code).elim (.error .inviteNotFound) .ok
  require (GuildTables.Invite.Usable invite now) .inviteNotFound
  checkJoinedQuota limits tables invite.guildID userID
  require (tables.getGuild invite.guildID).isSome .inviteNotFound
  require (⟨invite.guildID, userID⟩ ∉ tables.bans) .userBanned
  let changed ← (tables.consumeGuildInvite code).createGuildMember invite.guildID userID
  enqueueEvents changed [newGuildMemberJoinedEvent invite.guildID userID]

/-- The assignments, the overwrites and the row of a member who goes. -/
def departMember : Except GuildError GuildTables :=
  ((tables.deleteGuildMemberRoleAssignments guildID userID).deleteGuildChannelPermissionOverwritesForAppliesTo
    guildID .member userID).removeGuildMember guildID userID

def leaveGuild : Except GuildError Outcome := do
  require (0 < guildID) (.invalidRequest "guild id is required")
  validateUserID userID
  let guild ← found (tables.getGuildForMember guildID userID)
  require (guild.ownerID ≠ userID) (.invalidRequest "guild owner must transfer ownership before leaving")
  let changed ← departMember tables guildID userID
  enqueueEvents changed [newGuildMemberRemovedEvent guildID userID]

def kickGuildMember : Except GuildError Outcome := do
  validateMemberActorRequest guildID actorUserID
  validateUserID userID
  let actor ← tables.loadMemberAuthority guildID actorUserID
  require (actor.has permissionKickMembers) .permissionDenied
  let target ← tables.loadMemberAuthority guildID userID
  require (target.isOwner = false) (.invalidRequest "guild owner cannot be kicked")
  require (canManageMember actor target) .permissionDenied
  let changed ← departMember tables guildID userID
  enqueueEvents changed [newGuildMemberRemovedEvent guildID userID]

/-- A user who is to be banned departs; who is not a member has nothing to leave. -/
def departForBan (actor : MemberAuthority) (guildID userID : ℤ) : Except GuildError GuildTables :=
  match tables.loadMemberAuthority guildID userID with
  | .ok target => do
    require (canManageMember actor target) .permissionDenied
    departMember tables guildID userID
  | .error .notFound => .ok tables
  | .error error => .error error

def banGuildMember : Except GuildError Outcome := do
  validateMemberActorRequest guildID actorUserID
  validateUserID userID
  require (userID ≠ actorUserID) (.invalidRequest "actor cannot ban themselves")
  let actor ← tables.loadMemberAuthority guildID actorUserID
  require (actor.has permissionBanMembers) .permissionDenied
  require (actor.guild.ownerID ≠ userID) (.invalidRequest "guild owner cannot be banned")
  let changed ← departForBan tables actor guildID userID
  enqueueEvents (changed.upsertGuildBan ⟨guildID, userID⟩) [newGuildMemberBannedEvent guildID userID]

def transferGuildOwnership (newOwnerID : ℤ) : Except GuildError Outcome := do
  validateMemberActorRequest guildID actorUserID
  require (0 < newOwnerID) (.invalidRequest "new owner id is required")
  require (newOwnerID ≠ actorUserID) (.invalidRequest "new owner must differ from current owner")
  let guild ← found (tables.getGuildForMember guildID actorUserID)
  require (guild.ownerID = actorUserID) .permissionDenied
  require (tables.getGuildMember guildID newOwnerID).isSome .notFound
  require ((tables.guilds.filter fun row => row.ownerID = newOwnerID ∧ row.deleted = false).length < limits.ownedGuilds)
    .resourceLimitExceeded
  let changed ← tables.transferGuildOwnership guildID actorUserID newOwnerID
  enqueueEvents changed [newGuildUpdatedEvent guildID newOwnerID]

/-- Everything of the guild is deleted with it. -/
def deleteGuild : Except GuildError Outcome := do
  validateMemberActorRequest guildID actorUserID
  let guild ← found (tables.getGuildForMember guildID actorUserID)
  require (guild.ownerID = actorUserID) .permissionDenied
  let deleted ← tables.deleteGuild guildID
  let emptied := ((deleted.deleteGuildMembers guildID).deleteAllGuildRoleAssignments
    guildID).deleteAllGuildChannelPermissionOverwrites guildID
  let changed := (((emptied.deleteGuildChannels guildID).deleteGuildBans guildID).deleteGuildInvites
    guildID).deleteGuildRoles guildID
  enqueueEvents changed [newGuildDeletedEvent guildID]

end Members

/-- The operations that can change who sees which channel. -/
inductive GuildOperation where
  | createRole (guildID actorUserID roleID : ℤ) (permissions : Permissions)
  | updateRole (guildID actorUserID roleID : ℤ) (rename : Bool) (permissions : Option Permissions)
  | deleteRole (guildID actorUserID roleID : ℤ)
  | reorderRoles (guildID actorUserID : ℤ) (positions : List (ℤ × ℕ))
  | changeRoleMembers (guildID actorUserID roleID : ℤ) (userIDs : List ℤ) (add : Bool)
  | changeMemberRole (guildID actorUserID userID roleID : ℤ) (add : Bool)
  | createChannel (guildID actorUserID channelID : ℤ) (type : ChannelType) (parentID expected : ℤ)
  | updateChannel (channelID actorUserID : ℤ) (rename : Bool) (parentID : Option ℤ) (expected : ℤ)
  | deleteChannel (channelID actorUserID expected : ℤ)
  | reorderChannels (guildID actorUserID : ℤ) (items : List ChannelPlacement) (expected : ℤ)
  | upsertOverwrite (channelID actorUserID : ℤ) (appliesTo : AppliesTo) (appliesToID : ℤ) (allow deny : Permissions)
  | deleteOverwrite (channelID actorUserID : ℤ) (appliesTo : AppliesTo) (appliesToID : ℤ)
  | addMember (guildID actorUserID userID : ℤ)
  | joinByInvite (code : String) (userID now : ℤ)
  | leave (guildID userID : ℤ)
  | kick (guildID actorUserID userID : ℤ)
  | ban (guildID actorUserID userID : ℤ)
  | transferOwnership (guildID actorUserID newOwnerID : ℤ)
  | delete (guildID actorUserID : ℤ)
deriving DecidableEq, Repr

def GuildOperation.run : GuildOperation → Except GuildError Outcome
  | .createRole guildID actor roleID permissions => createGuildRole limits tables guildID actor roleID permissions
  | .updateRole guildID actor roleID rename permissions => updateGuildRole tables guildID actor roleID rename permissions
  | .deleteRole guildID actor roleID => deleteGuildRole tables guildID actor roleID
  | .reorderRoles guildID actor positions => reorderGuildRoles tables guildID actor positions
  | .changeRoleMembers guildID actor roleID userIDs add =>
      Guild.changeRoleMembers tables guildID actor roleID userIDs add
  | .changeMemberRole guildID actor userID roleID add => changeGuildMemberRole tables guildID actor userID roleID add
  | .createChannel guildID actor channelID type parentID expected =>
      createGuildChannel limits tables guildID actor channelID type parentID expected
  | .updateChannel channelID actor rename parentID expected =>
      updateGuildChannel tables channelID actor rename parentID expected
  | .deleteChannel channelID actor expected => deleteGuildChannel tables channelID actor expected
  | .reorderChannels guildID actor items expected => reorderGuildChannels tables guildID actor items expected
  | .upsertOverwrite channelID actor appliesTo appliesToID allow deny =>
      upsertGuildChannelPermissionOverwrite limits tables channelID actor appliesTo appliesToID allow deny
  | .deleteOverwrite channelID actor appliesTo appliesToID =>
      deleteGuildChannelPermissionOverwrite tables channelID actor appliesTo appliesToID
  | .addMember guildID actor userID => addGuildMember limits tables guildID actor userID
  | .joinByInvite code userID now => joinGuildByInvite limits tables code userID now
  | .leave guildID userID => leaveGuild tables guildID userID
  | .kick guildID actor userID => kickGuildMember tables guildID actor userID
  | .ban guildID actor userID => banGuildMember tables guildID actor userID
  | .transferOwnership guildID actor newOwnerID => transferGuildOwnership limits tables guildID actor newOwnerID
  | .delete guildID actor => deleteGuild tables guildID actor

end Cordis.Guild
