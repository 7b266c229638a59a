import Cordis.Guild.Transactions

/-! # What a transaction has seen before it writes

The guild handlers check before they write: an actor's authority, the role that is to change, that a
user is a member. `Allowed` says for each statement what must be in the log of its transaction when it
is issued, and `script_disciplined` that every handler keeps to it. What the checks are worth by the
time of the write is another matter: the log may be out of date.
-/

namespace Cordis.Guild

open Transaction Script List

section Rules

variable {allowed : StatementLog → Statement → Prop} {log : StatementLog}

@[simp] theorem ensures_check {condition : Prop} [Decidable condition] {error : GuildError}
    {post : StatementLog → Unit → Prop} :
    (check condition error).Ensures allowed post log ↔ (condition → post log ()) := by
  simp only [check, ensures_lift, Go.require_eq_ok]
  exact ⟨fun h holds => h () holds, fun h _ holds => h holds⟩

end Rules

/-- The checks of membership that a transaction has made, newest first. -/
def memberChecks (calls : List Statement) : List (ℤ × ℤ) :=
  calls.filterMap fun
    | .query (.getGuildForMember guildID userID) => some (guildID, userID)
    | _ => none

/-- The users checked after the first one, who is the actor of the request. -/
def targetChecks (calls : List Statement) : List (ℤ × ℤ) := (memberChecks calls).dropLast

/-- The transaction has loaded this authority of the user. -/
def AuthorityRead (log : StatementLog) (guildID userID : ℤ) (authority : MemberAuthority) : Prop :=
  ∃ guild roles, ⟨.query (.getGuildForMember guildID userID), some guild⟩ ∈ log ∧
    (guild.ownerID ≠ userID → ⟨.query (.listGuildMemberRoles guildID userID), roles⟩ ∈ log) ∧
    authority = memberAuthorityFromRoles guild roles userID

/-- A membership that is to end. -/
structure Departure where
  guildID : ℤ
  userID : ℤ
  checkedID : ℤ
deriving DecidableEq, Repr

namespace GuildRequest

/-- The guild and the actor of a request about roles. -/
def roleActor : GuildRequest → Option (ℤ × ℤ)
  | createRole guildID actor _ _ | updateRole guildID actor _ _ _ | deleteRole guildID actor _
  | reorderRoles guildID actor _ | changeRoleMembers guildID actor _ _ _ | changeMemberRole guildID actor _ _ _ =>
      some (guildID, actor)
  | _ => none

/-- The membership that the request ends, and the user together with whose membership it reads the owner
of the guild: the one who goes, or the actor of a ban. -/
def departure : GuildRequest → Option Departure
  | leave guildID userID | kick guildID _ userID => some ⟨guildID, userID, userID⟩
  | ban guildID actor userID => some ⟨guildID, userID, actor⟩
  | _ => none

/-- The request makes a user a member. -/
def Joins : GuildRequest → Bool
  | addMember _ _ _ | joinByInvite _ _ _ => true
  | _ => false

/-- The request gives a user something: a role, or an overwrite on a channel. -/
def Assigns : GuildRequest → Bool
  | changeRoleMembers _ _ _ _ add | changeMemberRole _ _ _ _ add => add
  | upsertOverwrite _ _ _ _ _ _ => true
  | _ => false

end GuildRequest

section Allowed

variable (request : GuildRequest) (log : StatementLog)

variable (guildID userID : ℤ)

/-- The actor of the request has loaded this authority. -/
def ActorRead (authority : MemberAuthority) : Prop :=
  ∃ actor, request.roleActor = some (guildID, actor) ∧ AuthorityRead log guildID actor authority

/-- The actor has loaded the role and may manage it. -/
def MayManage (roleID : ℤ) (authority : MemberAuthority) (role : Role) : Prop :=
  ActorRead request log guildID authority ∧ ⟨.query (.getGuildRole guildID roleID), some role⟩ ∈ log ∧
    role.isDefault = false ∧ authority.canManageRole role

/-- After the actor's check the membership of the user has been looked for, with this reply. -/
def TargetRead (reply : Option GuildRow) : Prop :=
  ∃ earlier, (⟨.query (.getGuildForMember guildID userID), reply⟩ :: earlier : StatementLog) <:+ log ∧
    memberChecks (issued earlier) ≠ []

/-- The user has been found to be a member, as the target of the request. -/
def FoundMember : Prop :=
  request.Assigns = true ∧ ∃ guild, TargetRead log guildID userID (some guild)

/-- After the actor's check, the user has not been found to be a member. -/
def NotFound : Prop := TargetRead log guildID userID none

/-- The request ends the membership. -/
def Departs : Prop := ∃ checkedID, request.departure = some ⟨guildID, userID, checkedID⟩

/-- The assignments of the user that have been seen have been deleted. -/
def RolesCleared : Prop :=
  ∃ seen earlier, (⟨.write (.deleteMemberRoles seen), ()⟩ :: earlier : StatementLog) <:+ log ∧
    ⟨.query (.seenMemberRoles guildID userID), seen⟩ ∈ earlier

/-- The overwrites of the user that have been seen have been deleted. -/
def OverwritesCleared : Prop :=
  ∃ seen earlier, (⟨.write (.deleteOverwrites seen), ()⟩ :: earlier : StatementLog) <:+ log ∧
    ⟨.query (.seenOverwrites guildID .member userID), seen⟩ ∈ earlier

/-- Membership is checked for the first time, or after a check of someone else in the guild succeeded. -/
def MayCheck : Prop :=
  memberChecks (issued log) = [] ∨ ∃ userID guild, ⟨.query (.getGuildForMember guildID userID), some guild⟩ ∈ log

/-- What the transaction has seen, and done, before each of its statements. -/
def Allowed : Statement → Prop
  | .query (.getGuildForMember guildID _) => MayCheck log guildID
  | .query (.seenBan _ _) => request.Joins = true
  | .query (.seenMemberRoles guildID userID) => Departs request guildID userID
  | .query (.seenOverwrites guildID .member userID) => ∃ seen, ⟨.query (.seenMemberRoles guildID userID), seen⟩ ∈ log
  | .query _ => True
  | .write (.createGuildRole role) =>
      request.Assigns = false ∧ ∃ authority, ActorRead request log role.guildID authority ∧
        role.permissions &&& ~~~allGuildPermissions = 0 ∧ authority.canGrantPermissions role.permissions ∧
        role.isDefault = false ∧ role.deleted = false ∧ (authority.isOwner ∨ role.position < authority.highestRole)
  | .write (.updateGuildRole guildID roleID permissions) =>
      request.Assigns = false ∧ ∃ authority role, ActorRead request log guildID authority ∧
        ⟨.query (.getGuildRole guildID roleID), some role⟩ ∈ log ∧ (role.isDefault ∨ authority.canManageRole role) ∧
        ∀ requested ∈ permissions, requested &&& ~~~allGuildPermissions = 0 ∧ authority.canGrantPermissions requested
  | .write (.updateGuildRolePositions guildID positions _) =>
      request.Assigns = false ∧ ∃ authority roles, ActorRead request log guildID authority ∧
        ⟨.query (.listGuildRoles guildID), roles⟩ ∈ log ∧ ∀ item ∈ positions, ∃ role ∈ roles, role.id = item.1 ∧ role.isDefault = false ∧ authority.canManageRole role ∧
          (authority.isOwner ∨ item.2 < authority.highestRole)
  | .write (.deleteGuildRole guildID roleID) =>
      request.Assigns = false ∧ ∃ authority role, MayManage request log guildID roleID authority role
  | .write (.addGuildMemberRole assignment) =>
      FoundMember request log assignment.guildID assignment.userID ∧
        ∃ authority role, MayManage request log assignment.guildID assignment.roleID authority role ∧
          authority.canGrantPermissions role.permissions
  | .write (.upsertGuildChannelPermissionOverwrite overwrite) =>
      (∃ channelID channel, ⟨.query (.getGuildChannel channelID), some channel⟩ ∈ log ∧
          channel.id = overwrite.channelID ∧ channel.guildID = overwrite.guildID) ∧
        (overwrite.appliesTo = .member → FoundMember request log overwrite.guildID overwrite.appliesToID)
  | .write (.createGuildMember guildID userID seenBan) =>
      request.Joins = true ∧ ⟨.query (.seenBan guildID userID), seenBan⟩ ∈ log
  | .write (.removeGuildMember guildID userID) =>
      (∃ checkedID guild, request.departure = some ⟨guildID, userID, checkedID⟩ ∧
          ⟨.query (.getGuildForMember guildID checkedID), some guild⟩ ∈ log ∧ guild.ownerID ≠ userID) ∧
        RolesCleared log guildID userID ∧ OverwritesCleared log guildID userID
  | .write (.upsertGuildBan ban) =>
      (∃ actor, request = .ban ban.guildID actor ban.userID) ∧ (ban.guildID, ban.userID) ∈ targetChecks (issued log) ∧
        (NotFound log ban.guildID ban.userID ∨ ⟨.write (.removeGuildMember ban.guildID ban.userID), true⟩ ∈ log)
  | .write (.deleteGuildBan ban) => ∃ actor, request = .unban ban.guildID actor ban.userID
  | .write (.transferGuildOwnership guildID ownerID newOwnerID) =>
      request = .transferOwnership guildID ownerID newOwnerID ∧
        ∃ member, ⟨.query (.getGuildMember guildID newOwnerID), some member⟩ ∈ log
  | .write _ => True

end Allowed

section Handlers

variable {request : GuildRequest} {log later : StatementLog} {guildID userID : ℤ}

theorem memberChecks_suffix (suffix : log <:+ later) : memberChecks (issued log) <:+ memberChecks (issued later) := by
  obtain ⟨new, rfl⟩ := suffix
  refine ⟨memberChecks (issued new), ?_⟩
  simp [memberChecks, issued]

theorem mem_targetChecks_mono {target : ℤ × ℤ} (suffix : log <:+ later) (checked : target ∈ targetChecks (issued log)) :
    target ∈ targetChecks (issued later) := by
  obtain ⟨new, grown⟩ := memberChecks_suffix suffix
  have some : memberChecks (issued log) ≠ [] := by
    intro none
    simp [targetChecks, none] at checked
  rw [targetChecks, ← grown, dropLast_append_of_ne_nil some]
  exact mem_append_right _ checked

variable {reply : Option GuildRow}

theorem TargetRead.mono (read : TargetRead log guildID userID reply) (suffix : log <:+ later) :
    TargetRead later guildID userID reply := by
  obtain ⟨earlier, entry, checked⟩ := read
  exact ⟨earlier, entry.trans suffix, checked⟩

theorem FoundMember.mono (found : FoundMember request log guildID userID) (suffix : log <:+ later) :
    FoundMember request later guildID userID := by
  obtain ⟨assigns, guild, read⟩ := found
  exact ⟨assigns, guild, read.mono suffix⟩

/-- A check of another user, after that of the actor. -/
theorem mem_targetChecks_cons {calls : List Statement} (before : memberChecks calls ≠ []) :
    (guildID, userID) ∈ ((guildID, userID) :: memberChecks calls).dropLast := by
  cases checks : memberChecks calls with
  | nil => exact (before checks).elim
  | cons check rest => exact mem_cons_self

/-- Who has been looked for is among the targets. -/
theorem TargetRead.mem_targetChecks (read : TargetRead log guildID userID reply) :
    (guildID, userID) ∈ targetChecks (issued log) := by
  obtain ⟨earlier, entry, checked⟩ := read
  exact mem_targetChecks_mono entry (mem_targetChecks_cons checked)

section

variable {authority : MemberAuthority} (read : AuthorityRead log guildID userID authority)

include read

theorem AuthorityRead.mono (suffix : log <:+ later) : AuthorityRead later guildID userID authority := by
  obtain ⟨guild, roles, loaded, listed, rfl⟩ := read
  exact ⟨guild, roles, suffix.subset loaded, fun other => suffix.subset (listed other), rfl⟩

theorem AuthorityRead.memberChecks_ne_nil : memberChecks (issued log) ≠ [] := by
  obtain ⟨guild, _, loaded, _⟩ := read
  have check : (guildID, userID) ∈ memberChecks (issued log) :=
    mem_filterMap.mpr ⟨_, mem_map_of_mem loaded, rfl⟩
  exact ne_nil_of_mem check

theorem AuthorityRead.exists_guild :
    ∃ guild, ⟨.query (.getGuildForMember guildID userID), some guild⟩ ∈ log ∧
      (authority.isOwner = false → guild.ownerID ≠ userID) ∧ authority.guild = guild := by
  obtain ⟨guild, roles, loaded, _, rfl⟩ := read
  refine ⟨guild, loaded, fun notOwner owner => ?_, ?_⟩
  · simp [memberAuthorityFromRoles, owner] at notOwner
  · unfold memberAuthorityFromRoles
    split_ifs <;> rfl

theorem AuthorityRead.mayCheck : MayCheck log guildID := by
  obtain ⟨guild, _, loaded, _⟩ := read
  exact .inr ⟨userID, guild, loaded⟩

end

/-- The rule for the load of an authority. -/
theorem ensures_loadMemberAuthority {post : StatementLog → MemberAuthority → Prop} (may : MayCheck log guildID)
    (next : ∀ later authority, log <:+ later → AuthorityRead later guildID userID authority →
      (memberChecks (issued log) ≠ [] → ∃ guild, TargetRead later guildID userID (some guild)) → post later authority) :
    (loadMemberAuthority guildID userID).Ensures (Allowed request) post log := by
  unfold loadMemberAuthority
  simp only [ensures_bind, ensures_lift]
  refine ⟨may, fun reply guild loaded => ?_⟩
  obtain rfl : reply = some guild := by
    cases reply with
    | none => cases loaded
    | some row => exact congrArg some (Except.ok.inj loaded)
  split_ifs with owner
  · exact next _ _ (suffix_cons ..) ⟨guild, [], mem_cons_self, fun other => (other owner).elim, rfl⟩
      fun checked => ⟨guild, log, suffix_rfl, checked⟩
  · simp only [ensures_bind, ensures_pure]
    refine ⟨trivial, fun roles => ?_⟩
    exact next _ _ ((suffix_cons ..).trans (suffix_cons ..))
      ⟨guild, roles, mem_cons_of_mem _ mem_cons_self, fun _ => mem_cons_self, rfl⟩
      fun checked => ⟨guild, log, suffix_cons .., checked⟩

variable {post : StatementLog → Unit → Prop} {done : Unit} {authority : MemberAuthority} {actorUserID : ℤ}

theorem checkResourceQuota_ensures {quota : ResourceQuota} (next : ∀ later, log <:+ later → post later ()) :
    (checkResourceQuota quota).Ensures (Allowed request) post log := by
  unfold checkResourceQuota
  simp only [ensures_bind, ensures_lift]
  refine ⟨trivial, fun _ => ⟨trivial, fun _ _ _ => ?_⟩⟩
  exact next _ ((suffix_cons ..).trans (suffix_cons ..))

theorem forM_eq_ok {α : Type} {step : α → Except GuildError Unit} {values : List α}
    (all : values.forM step = .ok done) : ∀ value ∈ values, step value = .ok () := by
  induction values with
  | nil => exact fun _ member => (not_mem_nil member).elim
  | cons value values ih =>
    obtain ⟨_, here, rest⟩ := Go.bind_eq_ok.mp all
    intro other member
    rcases mem_cons.mp member with rfl | later
    · exact here
    · exact ih rest other later

theorem validatePermissions_eq_ok {permissions : Permissions}
    (valid : validatePermissions permissions = .ok done) : permissions &&& ~~~allGuildPermissions = 0 := by
  obtain ⟨_, _, supported⟩ := Go.bind_eq_ok.mp valid
  exact Go.require_eq_ok.mp supported

theorem nextManagedRolePosition_le (roles : List Role) (bound : ℕ) : nextManagedRolePosition roles bound ≤ bound := by
  induction bound with
  | zero => exact le_rfl
  | succ bound ih =>
    unfold nextManagedRolePosition
    split_ifs
    · omega
    · exact le_rfl

/-- A manager who is not the owner creates roles below their own. -/
theorem newRolePosition_lt {roles : List Role} {position : ℕ}
    (placed : newRolePosition authority roles = .ok position) :
    authority.isOwner = true ∨ position < authority.highestRole := by
  unfold newRolePosition at placed
  split_ifs at placed with owner positive
  · exact .inl owner
  · cases placed
    have below := nextManagedRolePosition_le roles (authority.highestRole - 1)
    right
    omega

theorem checkRoleMove_eq_ok {roles : List Role} {item : ℤ × ℕ}
    (allowed : checkRoleMove authority roles item = .ok done) :
    ∃ role ∈ roles, role.id = item.1 ∧ role.isDefault = false ∧ authority.canManageRole role = true ∧
      (authority.isOwner = true ∨ item.2 < authority.highestRole) := by
  simp only [checkRoleMove, Go.bind_eq_ok, Go.require_eq_ok, found_eq_ok] at allowed
  obtain ⟨role, found, _, ⟨plain, manages⟩, below⟩ := allowed
  exact ⟨role, mem_of_find?_eq_some found, by simpa using find?_some found, plain, manages, below⟩

theorem mem_of_lookup {positions : List (ℤ × ℕ)} {roleID : ℤ} {position : ℕ}
    (found : positions.lookup roleID = some position) : (roleID, position) ∈ positions := by
  obtain ⟨before, behind, rfl, _⟩ := lookup_eq_some_iff.mp found
  simp

/-- One round of the loop over the users: the actor's authority and the role stay in the log. -/
theorem changeRoleMember_keeps {roleID : ℤ} {add : Bool} {role : Role}
    (actor : request.roleActor = some (guildID, actorUserID)) (assigns : request.Assigns = add)
    (plain : role.isDefault = false) (manages : authority.canManageRole role = true)
    (grants : add = true → authority.canGrantPermissions role.permissions = true) (userIDs : List ℤ) (log : StatementLog)
    (before : AuthorityRead log guildID actorUserID authority ∧
      ⟨.query (.getGuildRole guildID roleID), some role⟩ ∈ log) (userID : ℤ) (_ : userID ∈ userIDs) :
    (Transaction.changeRoleMember authority guildID roleID add userID).Ensures (Allowed request)
      (fun log _ => AuthorityRead log guildID actorUserID authority ∧
        ⟨.query (.getGuildRole guildID roleID), some role⟩ ∈ log) log := by
  obtain ⟨read, loaded⟩ := before
  unfold Transaction.changeRoleMember
  simp only [ensures_bind, ensures_check]
  refine ensures_loadMemberAuthority read.mayCheck fun later target suffix _ found _ => ?_
  have readLater := read.mono suffix
  have loadedLater := suffix.subset loaded
  split_ifs with adds
  · exact ⟨⟨⟨assigns.trans adds, found read.memberChecks_ne_nil⟩, authority, role,
      ⟨⟨actorUserID, actor, readLater⟩, loadedLater, plain, manages⟩, grants adds⟩,
      fun _ => ⟨readLater.mono (suffix_cons ..), mem_cons_of_mem _ loadedLater⟩⟩
  · exact ⟨trivial, fun _ => ⟨readLater.mono (suffix_cons ..), mem_cons_of_mem _ loadedLater⟩⟩

/-- The loop over the users: the actor's authority and the role stay in the log. -/
theorem changeGuildRoleMembers_disciplined (guildID actorUserID roleID : ℤ) (userIDs : List ℤ) (add : Bool)
    (actor : request.roleActor = some (guildID, actorUserID)) (assigns : request.Assigns = add) :
    (Transaction.changeGuildRoleMembers guildID actorUserID roleID userIDs add).Ensures (Allowed request)
      (fun _ _ => True) [] := by
  unfold Transaction.changeGuildRoleMembers
  simp only [ensures_bind, ensures_lift, ensures_check]
  refine ensures_loadMemberAuthority (.inl rfl) fun log authority _ read _ _ => ⟨trivial, fun reply role loaded plain manages grants => ?_⟩
  obtain rfl := found_eq_ok.mp loaded
  have kept : AuthorityRead (⟨.query (.getGuildRole guildID roleID), some role⟩ :: log) guildID actorUserID authority :=
    read.mono (suffix_cons ..)
  have loop : (Script.each (Transaction.changeRoleMember authority guildID roleID add) userIDs).Ensures (Allowed request)
      (fun log _ => AuthorityRead log guildID actorUserID authority ∧
        ⟨.query (.getGuildRole guildID roleID), some role⟩ ∈ log)
      (⟨.query (.getGuildRole guildID roleID), some role⟩ :: log) := by
    refine ensures_each ⟨kept, mem_cons_self⟩ ?_
    exact changeRoleMember_keeps actor assigns plain manages grants userIDs
  exact loop.mono fun _ _ _ _ => trivial

/-- The check of the target of an overwrite. -/
theorem validateOverwriteAppliesTo_ensures {appliesTo : AppliesTo} {appliesToID : ℤ}
    (read : AuthorityRead log guildID actorUserID authority)
    (next : ∀ later, log <:+ later →
      (appliesTo = .member → ∃ guild, TargetRead later guildID appliesToID (some guild)) → post later ()) :
    (Transaction.validateOverwriteAppliesTo authority guildID appliesTo appliesToID).Ensures (Allowed request) post log := by
  cases appliesTo with
  | role =>
    simp only [Transaction.validateOverwriteAppliesTo, ensures_bind, ensures_lift, ensures_check]
    exact ⟨trivial, fun _ _ _ _ => next _ (suffix_cons ..) (by simp)⟩
  | member =>
    simp only [Transaction.validateOverwriteAppliesTo, ensures_bind, ensures_check]
    exact ensures_loadMemberAuthority read.mayCheck fun later target suffix _ found _ =>
      next _ suffix fun _ => found read.memberChecks_ne_nil

theorem createGuildMember_ensures (joins : request.Joins = true) (next : ∀ later, post later ()) :
    (createGuildMember guildID userID).Ensures (Allowed request) post log := by
  unfold createGuildMember
  simp only [ensures_bind, ensures_check]
  exact ⟨joins, fun seenBan => ⟨⟨joins, mem_cons_self⟩, fun _ _ => next _⟩⟩

/-- The rule for the statements that end a membership. -/
theorem departMember_ensures {checkedID : ℤ} {guild : GuildRow}
    (departs : request.departure = some ⟨guildID, userID, checkedID⟩)
    (loaded : ⟨.query (.getGuildForMember guildID checkedID), some guild⟩ ∈ log) (other : guild.ownerID ≠ userID)
    (next : ∀ later, ⟨.write (.removeGuildMember guildID userID), true⟩ ∈ later →
      memberChecks (issued later) = memberChecks (issued log) → post later ()) :
    (Transaction.departMember guildID userID).Ensures (Allowed request) post log := by
  unfold Transaction.departMember
  simp only [ensures_bind, ensures_check]
  refine ⟨⟨checkedID, departs⟩, fun roles => ⟨trivial, fun _ => ⟨⟨roles, by simp⟩, fun overwrites => ⟨trivial, fun _ => ⟨?_, ?_⟩⟩⟩⟩⟩
  · refine ⟨⟨checkedID, guild, departs, ?_, other⟩, ⟨roles, ⟨.query (.seenMemberRoles guildID userID), roles⟩ :: log, ?_, ?_⟩,
      ⟨overwrites, _, suffix_rfl, mem_cons_self⟩⟩
    · simp [loaded]
    · exact (suffix_cons ..).trans (suffix_cons ..)
    · exact mem_cons_self
  · rintro _ rfl
    exact next _ mem_cons_self rfl

/-- Who is to be banned has not been found to be a member, or has departed. -/
theorem removeForBan_ensures {actor : MemberAuthority} {guild : GuildRow}
    (loaded : ⟨.query (.getGuildForMember guildID actorUserID), some guild⟩ ∈ log) (other : guild.ownerID ≠ userID)
    (next : ∀ later, reply = none ∧ later = log ∨ ⟨.write (.removeGuildMember guildID userID), true⟩ ∈ later ∧
      memberChecks (issued later) = memberChecks (issued log) → post later ()) :
    (Transaction.removeForBan actor guildID userID reply).Ensures (Allowed (.ban guildID actorUserID userID)) post log := by
  cases reply with
  | none => exact next log (.inl ⟨rfl, rfl⟩)
  | some row =>
    simp only [Transaction.removeForBan]
    split_ifs
    · simp only [Transaction.departForBan, ensures_bind, ensures_check]
      exact fun _ => departMember_ensures rfl loaded other fun later removed checks => next later (.inr ⟨removed, checks⟩)
    · simp only [Transaction.departForBan, ensures_bind, ensures_check]
      exact ⟨trivial, fun _ _ => departMember_ensures rfl (mem_cons_of_mem _ loaded) other
        fun later removed checks => next later (.inr ⟨removed, checks⟩)⟩

namespace GuildRequest

/-- The handler of the request checks before it writes. -/
def Disciplined (request : GuildRequest) : Prop :=
  request.script.Ensures (Allowed request) (fun _ _ => True) []

variable (guildID channelID actorUserID userID roleID appliesToID newOwnerID now : ℤ)

theorem createGuildRole_disciplined (permissions : Permissions) :
    (createRole guildID actorUserID roleID permissions).Disciplined := by
  -- `delta`, here and below, spares the equations that `script` has for all the other requests.
  delta Disciplined script
  simp only [Transaction.createGuildRole, ensures_bind, ensures_lift, ensures_check]
  intro _ _ _ valid
  refine ensures_loadMemberAuthority (.inl rfl) fun log authority _ read _ _ grants => ?_
  refine checkResourceQuota_ensures fun later suffix => ⟨trivial, fun roles position placed => ⟨?_, fun _ _ => trivial⟩⟩
  refine ⟨rfl, authority, ⟨actorUserID, rfl, read.mono (suffix.trans (suffix_cons ..))⟩, ?_⟩
  exact ⟨validatePermissions_eq_ok valid, grants, rfl, rfl, newRolePosition_lt placed⟩

theorem updateGuildRole_disciplined (rename : Bool) (permissions : Option Permissions) :
    (updateRole guildID actorUserID roleID rename permissions).Disciplined := by
  delta Disciplined script
  simp only [Transaction.updateGuildRole, ensures_bind, ensures_lift, ensures_check]
  intro _ _ _ valid _
  refine ensures_loadMemberAuthority (.inl rfl) fun log authority _ read _ _ grants => ⟨trivial, fun reply role loaded _ manages => ?_⟩
  obtain rfl := found_eq_ok.mp loaded
  refine ⟨⟨rfl, authority, role, ⟨actorUserID, rfl, read.mono (suffix_cons ..)⟩, mem_cons_self, manages, ?_⟩,
    fun _ _ => trivial⟩
  intro requested member
  cases Option.mem_def.mp member
  exact ⟨validatePermissions_eq_ok valid, Option.all_some.symm.trans grants⟩

theorem deleteGuildRole_disciplined : (deleteRole guildID actorUserID roleID).Disciplined := by
  delta Disciplined script
  simp only [Transaction.deleteGuildRole, ensures_bind, ensures_lift, ensures_check]
  intro _ _
  refine ensures_loadMemberAuthority (.inl rfl) fun log authority _ read _ _ => ⟨trivial, fun reply role loaded plain manages => ?_⟩
  obtain rfl := found_eq_ok.mp loaded
  refine ⟨trivial, fun _ => ⟨trivial, fun _ => ⟨trivial, fun _ => ⟨trivial, fun _ => ⟨?_, fun _ _ => trivial⟩⟩⟩⟩⟩
  refine ⟨rfl, authority, role, ⟨actorUserID, rfl, read.mono ?_⟩, ?_, plain, manages⟩
  · simp [suffix_cons_iff]
  · simp

theorem reorderGuildRoles_disciplined (positions : List (ℤ × ℕ)) :
    (reorderRoles guildID actorUserID positions).Disciplined := by
  delta Disciplined script
  simp only [Transaction.reorderGuildRoles, ensures_bind, ensures_lift, ensures_check]
  intro _ _ _ _ _
  refine ensures_loadMemberAuthority (.inl rfl) fun log authority _ read _ _ => ⟨trivial, fun roles _ _ _ moves => ?_⟩
  refine ⟨trivial, fun seen => ⟨⟨rfl, authority, roles, ⟨actorUserID, rfl, read.mono ?_⟩, ?_, fun item member => ?_⟩,
    fun _ _ => trivial⟩⟩
  · exact (suffix_cons ..).trans (suffix_cons ..)
  · exact mem_cons_of_mem _ mem_cons_self
  · exact checkRoleMove_eq_ok (forM_eq_ok moves item member)

theorem upsertOverwrite_disciplined (appliesTo : AppliesTo) (allow deny : Permissions) :
    (upsertOverwrite channelID actorUserID appliesTo appliesToID allow deny).Disciplined := by
  delta Disciplined script
  simp only [Transaction.upsertGuildChannelPermissionOverwrite, ensures_bind, ensures_lift, ensures_check]
  refine fun _ _ => ⟨trivial, fun reply channel found => ?_⟩
  obtain rfl := found_eq_ok.mp found
  refine ensures_loadMemberAuthority (.inl rfl) fun log authority loaded read _ _ => ?_
  refine validateOverwriteAppliesTo_ensures read fun middle validated found =>
    checkResourceQuota_ensures fun later suffix => ⟨⟨⟨channelID, channel, ?_, rfl, rfl⟩, fun member => ?_⟩, fun _ => trivial⟩
  · exact suffix.subset (validated.subset (loaded.subset mem_cons_self))
  · obtain ⟨guild, read⟩ := found member
    exact ⟨rfl, guild, read.mono suffix⟩

theorem deleteOverwrite_disciplined (appliesTo : AppliesTo) :
    (deleteOverwrite channelID actorUserID appliesTo appliesToID).Disciplined := by
  delta Disciplined script
  simp only [Transaction.deleteGuildChannelPermissionOverwrite, ensures_bind, ensures_lift, ensures_check]
  refine fun _ _ => ⟨trivial, fun _ channel _ => ensures_loadMemberAuthority (.inl rfl) fun log authority _ read _ _ _ => ?_⟩
  exact validateOverwriteAppliesTo_ensures read fun middle _ _ => ⟨trivial, fun _ => trivial⟩

theorem addGuildMember_disciplined : (addMember guildID actorUserID userID).Disciplined := by
  delta Disciplined script
  simp only [Transaction.addGuildMember, ensures_bind, ensures_lift, ensures_check]
  intro _ _ _ _
  refine ensures_loadMemberAuthority (.inl rfl) fun log authority _ _ _ _ => ⟨trivial, fun _ _ => ⟨trivial, fun _ _ => ?_⟩⟩
  exact checkResourceQuota_ensures fun _ _ => createGuildMember_ensures rfl fun _ => trivial

theorem joinGuildByInvite_disciplined (code : String) : (joinByInvite code userID now).Disciplined := by
  delta Disciplined script
  simp only [Transaction.joinGuildByInvite, ensures_bind, ensures_lift, ensures_check]
  refine fun _ _ => ⟨trivial, fun _ preview _ _ => ⟨trivial, fun _ _ => checkResourceQuota_ensures fun _ _ => ?_⟩⟩
  refine ⟨trivial, fun _ invite _ => ⟨trivial, fun _ _ => ⟨trivial, fun _ _ => ?_⟩⟩⟩
  exact createGuildMember_ensures rfl fun _ => trivial

theorem leaveGuild_disciplined : (leave guildID userID).Disciplined := by
  delta Disciplined script
  simp only [Transaction.leaveGuild, ensures_bind, ensures_lift, ensures_check]
  refine fun _ _ _ => ⟨.inl rfl, fun reply guild loaded other => ?_⟩
  obtain rfl := found_eq_ok.mp loaded
  exact departMember_ensures rfl mem_cons_self other fun _ _ _ => trivial

theorem kickGuildMember_disciplined : (kick guildID actorUserID userID).Disciplined := by
  delta Disciplined script
  simp only [Transaction.kickGuildMember, ensures_bind, ensures_lift, ensures_check]
  intro _ _ _ _
  refine ensures_loadMemberAuthority (.inl rfl) fun log actor _ actorRead _ _ =>
    ensures_loadMemberAuthority actorRead.mayCheck fun later target _ read _ notOwner _ => ?_
  obtain ⟨guild, loaded, other, _⟩ := read.exists_guild
  exact departMember_ensures rfl loaded (other notOwner) fun _ _ _ => trivial

theorem banGuildMember_disciplined : (ban guildID actorUserID userID).Disciplined := by
  delta Disciplined script
  simp only [Transaction.banGuildMember, ensures_bind, ensures_lift, ensures_check]
  intro _ _ _ _ _
  refine ensures_loadMemberAuthority (.inl rfl) fun log actor _ read _ _ other => ⟨read.mayCheck, fun reply => ?_⟩
  obtain ⟨guild, loaded, _, same⟩ := read.exists_guild
  rw [same] at other
  have target : (guildID, userID) ∈ ((guildID, userID) :: memberChecks (issued log)).dropLast :=
    mem_targetChecks_cons read.memberChecks_ne_nil
  refine removeForBan_ensures (mem_cons_of_mem _ loaded) other fun later departed => ⟨?_, fun _ => trivial⟩
  rcases departed with ⟨rfl, rfl⟩ | ⟨removed, checks⟩
  · exact ⟨⟨actorUserID, rfl⟩, target, .inl ⟨log, suffix_rfl, read.memberChecks_ne_nil⟩⟩
  · refine ⟨⟨actorUserID, rfl⟩, ?_, .inr removed⟩
    rw [targetChecks, checks]
    exact target

theorem unbanGuildMember_disciplined : (unban guildID actorUserID userID).Disciplined := by
  delta Disciplined script
  simp only [unbanGuildMember, ensures_bind, ensures_lift, ensures_check]
  intro _ _ _ _
  exact ensures_loadMemberAuthority (.inl rfl) fun log actor _ _ _ _ => ⟨⟨actorUserID, rfl⟩, fun _ _ => trivial⟩

theorem transferGuildOwnership_disciplined : (transferOwnership guildID actorUserID newOwnerID).Disciplined := by
  delta Disciplined script
  simp only [Transaction.transferGuildOwnership, ensures_bind, ensures_lift, ensures_check]
  refine fun _ _ _ _ => ⟨.inl rfl, fun _ guild _ _ => ⟨trivial, fun reply isMember => ?_⟩⟩
  obtain ⟨member, rfl⟩ := Option.isSome_iff_exists.mp isMember
  refine checkResourceQuota_ensures fun later suffix => ⟨⟨rfl, member, ?_⟩, fun _ _ => trivial⟩
  exact suffix.subset mem_cons_self

end GuildRequest

open GuildRequest in
/-- Every handler checks before it writes. -/
theorem script_disciplined (request : GuildRequest) :
    request.script.Ensures (Allowed request) (fun _ _ => True) [] := by
  cases request with
  | createRole guildID actor roleID permissions => exact createGuildRole_disciplined ..
  | updateRole guildID actor roleID rename permissions => exact updateGuildRole_disciplined ..
  | deleteRole guildID actor roleID => exact deleteGuildRole_disciplined ..
  | reorderRoles guildID actor positions => exact reorderGuildRoles_disciplined ..
  | changeRoleMembers guildID actor roleID userIDs add =>
    simp only [GuildRequest.script, Transaction.changeRoleMembers, ensures_bind, ensures_lift]
    exact fun users _ _ _ => changeGuildRoleMembers_disciplined guildID actor roleID users add rfl rfl
  | changeMemberRole guildID actor userID roleID add =>
    simp only [GuildRequest.script, Transaction.changeGuildMemberRole, ensures_bind, ensures_lift]
    exact fun _ _ _ _ => changeGuildRoleMembers_disciplined guildID actor roleID [userID] add rfl rfl
  | upsertOverwrite channelID actor appliesTo appliesToID allow deny => exact upsertOverwrite_disciplined ..
  | deleteOverwrite channelID actor appliesTo appliesToID => exact deleteOverwrite_disciplined ..
  | addMember guildID actor userID => exact addGuildMember_disciplined ..
  | joinByInvite code userID now => exact joinGuildByInvite_disciplined ..
  | leave guildID userID => exact leaveGuild_disciplined ..
  | kick guildID actor userID => exact kickGuildMember_disciplined ..
  | ban guildID actor userID => exact banGuildMember_disciplined ..
  | unban guildID actor userID => exact unbanGuildMember_disciplined ..
  | transferOwnership guildID actor newOwnerID => exact transferGuildOwnership_disciplined ..

end Handlers

end Cordis.Guild
