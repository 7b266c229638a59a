import Mathlib.Data.BitVec

/-! # Permissions of a member

A member's permissions in a guild are the union of those of the roles the member holds. In a channel
they are changed by the channel's overwrites, in a fixed order: the one for everyone, those of the
held roles together, and the one for the member.

Permissions are words. What the functions compute depends on the roles and the overwrites as sets, as
long as no two overwrites of the channel have one target; this is what the last section shows.
-/

namespace Cordis.Guild

open List

abbrev Permissions := BitVec 64

def permissionAdministrator : Permissions := 1
def permissionManageGuild : Permissions := 2
def permissionManageRoles : Permissions := 4
def permissionManageMembers : Permissions := 8
def permissionKickMembers : Permissions := 16
def permissionViewChannel : Permissions := 32
def permissionSendMessages : Permissions := 64
def permissionManageChannels : Permissions := 128
def permissionManageMessages : Permissions := 256
def permissionBanMembers : Permissions := 512
def permissionCreateInvite : Permissions := 1024
def permissionMentionEveryone : Permissions := 2048

def allGuildPermissions : Permissions :=
  permissionAdministrator ||| permissionManageGuild ||| permissionManageRoles ||| permissionManageMembers |||
  permissionKickMembers ||| permissionViewChannel ||| permissionSendMessages ||| permissionManageChannels |||
  permissionManageMessages ||| permissionBanMembers ||| permissionCreateInvite ||| permissionMentionEveryone

def allChannelPermissions : Permissions :=
  permissionViewChannel ||| permissionSendMessages ||| permissionManageChannels ||| permissionManageMessages |||
  permissionMentionEveryone

/-- A row of `guilds`. -/
structure GuildRow where
  id : ℤ
  ownerID : ℤ
  accessRevision : ℕ := 1
  channelLayoutRevision : ℕ := 1
  deleted : Bool := false
deriving DecidableEq, Repr

/-- A row of `roles`. -/
structure Role where
  id : ℤ
  guildID : ℤ
  permissions : Permissions
  position : ℕ
  isDefault : Bool := false
  deleted : Bool := false
deriving DecidableEq, Repr

inductive AppliesTo where
  | role
  | member
deriving DecidableEq, Repr

/-- A row of `guild_channel_permission_overwrites`. -/
structure Overwrite where
  channelID : ℤ
  guildID : ℤ
  appliesTo : AppliesTo
  appliesToID : ℤ
  allow : Permissions := 0
  deny : Permissions := 0
deriving DecidableEq, Repr

structure MemberAuthority where
  guild : GuildRow
  permissions : Permissions
  highestRole : ℕ
  isOwner : Bool := false
deriving DecidableEq, Repr

def maxInt32 : ℕ := 2 ^ 31 - 1

/-- The union of words, one for each element. -/
def unionOf {α : Type} (word : α → Permissions) (values : List α) : Permissions :=
  values.foldl (fun union value => union ||| word value) 0

/-- The highest position of the roles other than the default one. -/
def highestPosition (roles : List Role) : ℕ :=
  roles.foldl (fun highest role => if !role.isDefault && highest < role.position then role.position else highest) 0

def withAdministrator (permissions : Permissions) : Permissions :=
  if permissions &&& permissionAdministrator ≠ 0 then allGuildPermissions else permissions

def memberAuthorityFromRoles (guild : GuildRow) (roles : List Role) (userID : ℤ) : MemberAuthority :=
  if guild.ownerID = userID then
    { guild, permissions := allGuildPermissions, highestRole := maxInt32, isOwner := true }
  else
    { guild, permissions := withAdministrator (unionOf Role.permissions roles), highestRole := highestPosition roles }

namespace MemberAuthority

variable (authority : MemberAuthority)

/-- The owner and administrators pass every check of a permission. -/
def unrestricted : Bool := authority.isOwner || decide (authority.permissions &&& permissionAdministrator ≠ 0)

def has (permission : Permissions) : Bool :=
  authority.unrestricted || decide (authority.permissions &&& permission = permission)

def canManageRole (role : Role) : Bool :=
  authority.isOwner || (!role.isDefault && decide (role.position < authority.highestRole))

def canGrantPermissions (permissions : Permissions) : Bool :=
  authority.unrestricted || decide (permissions &&& ~~~authority.permissions = 0)

end MemberAuthority

def canManageMember (actor target : MemberAuthority) : Bool :=
  actor.isOwner || (!target.isOwner && decide (target.highestRole < actor.highestRole))

def applyOverwrite (permissions deny allow : Permissions) : Permissions := permissions &&& ~~~deny ||| allow

/-- Apply the first overwrite of the target, if there is one. -/
def applyFirst (permissions : Permissions) (overwrites : List Overwrite) (appliesTo : AppliesTo) (appliesToID : ℤ) :
    Permissions :=
  match overwrites.find? fun overwrite => overwrite.appliesTo = appliesTo ∧ overwrite.appliesToID = appliesToID with
  | some overwrite => applyOverwrite permissions overwrite.deny overwrite.allow
  | none => permissions

/-- The overwrites of the roles held, without that of the default role. -/
def roleOverwrites (guildID : ℤ) (roles : List Role) (overwrites : List Overwrite) : List Overwrite :=
  overwrites.filter fun overwrite =>
    overwrite.appliesTo = .role ∧ overwrite.appliesToID ∈ roles.map Role.id ∧ overwrite.appliesToID ≠ guildID

/-- Nothing can be sent or managed in a channel that is not seen. -/
def maskUnseen (permissions : Permissions) : Permissions :=
  if permissions &&& permissionViewChannel = 0 then
    permissions &&& ~~~(permissionSendMessages ||| permissionManageMessages)
  else permissions

def overwrittenPermissions (base : Permissions) (guildID : ℤ) (roles : List Role) (overwrites : List Overwrite)
    (userID : ℤ) : Permissions :=
  applyFirst
    (applyOverwrite (applyFirst base overwrites .role guildID)
      (unionOf Overwrite.deny (roleOverwrites guildID roles overwrites))
      (unionOf Overwrite.allow (roleOverwrites guildID roles overwrites)))
    overwrites .member userID

def channelPermissions (authority : MemberAuthority) (roles : List Role) (overwrites : List Overwrite) (userID : ℤ) :
    Permissions :=
  if authority.unrestricted then allGuildPermissions
  else maskUnseen (overwrittenPermissions authority.permissions authority.guild.id roles overwrites userID)

/-- A single permission is had as a whole or not at all. -/
theorem and_twoPow_eq_self {word : Permissions} {i : ℕ} (small : i < 64) :
    word &&& BitVec.twoPow 64 i = BitVec.twoPow 64 i ↔ word &&& BitVec.twoPow 64 i ≠ 0 := by
  have nonzero : BitVec.twoPow 64 i ≠ 0#64 := by
    intro zero
    have bit : (BitVec.twoPow 64 i).getLsbD i = true := by simp [small]
    simp [zero] at bit
  rw [BitVec.and_twoPow]
  split_ifs
  · simp [nonzero]
  · simp [Ne.symm nonzero]

section Union

variable {α : Type} {word : α → Permissions}

theorem getLsbD_unionOf (values : List α) (i : ℕ) :
    (unionOf word values).getLsbD i = values.any fun value => (word value).getLsbD i := by
  have general (start : Permissions) : (values.foldl (fun union value => union ||| word value) start).getLsbD i =
      (start.getLsbD i || values.any fun value => (word value).getLsbD i) := by
    induction values generalizing start with
    | nil => simp
    | cons value values ih => simp [ih, Bool.or_assoc]
  simpa [unionOf] using general 0

/-- A union depends on which elements there are, not on their order or number. -/
theorem unionOf_congr {first second : List α} (same : ∀ value, value ∈ first ↔ value ∈ second) :
    unionOf word first = unionOf word second := by
  refine BitVec.eq_of_getLsbD_eq fun i _ => ?_
  rw [getLsbD_unionOf, getLsbD_unionOf, Bool.eq_iff_iff]
  simp [same]

end Union

section Overwrites

variable {first second : List Overwrite} {appliesTo : AppliesTo} {appliesToID : ℤ}

/-- The only row that a lookup can find. -/
theorem find?_of_only {Row : Type} {rows : List Row} {wanted : Row → Bool} {row : Row} (member : row ∈ rows)
    (isWanted : wanted row = true) (only : ∀ other ∈ rows, wanted other = true → other = row) :
    rows.find? wanted = some row := by
  cases found : rows.find? wanted with
  | none => exact absurd isWanted (find?_eq_none.mp found row member)
  | some other => rw [only other (mem_of_find?_eq_some found) (find?_some found)]

/-- No two overwrites have one target. -/
def OnePerTarget (overwrites : List Overwrite) : Prop :=
  ∀ a ∈ overwrites, ∀ b ∈ overwrites, a.appliesTo = b.appliesTo → a.appliesToID = b.appliesToID → a = b

theorem find?_eq_some {overwrite : Overwrite} (unique : OnePerTarget first) :
    (first.find? fun found => found.appliesTo = appliesTo ∧ found.appliesToID = appliesToID) = some overwrite ↔
      overwrite ∈ first ∧ overwrite.appliesTo = appliesTo ∧ overwrite.appliesToID = appliesToID := by
  constructor
  · intro found
    exact ⟨mem_of_find?_eq_some found, by simpa using find?_some found⟩
  · rintro ⟨member, rfl, rfl⟩
    refine find?_of_only member (by simp) fun other listed target => ?_
    rw [decide_eq_true_eq] at target
    exact unique other listed overwrite member target.1 target.2

theorem applyFirst_congr (permissions : Permissions) (unique : OnePerTarget first) (unique' : OnePerTarget second)
    (same : ∀ overwrite : Overwrite, overwrite.appliesTo = appliesTo → overwrite.appliesToID = appliesToID →
      (overwrite ∈ first ↔ overwrite ∈ second)) :
    applyFirst permissions first appliesTo appliesToID = applyFirst permissions second appliesTo appliesToID := by
  have found : (first.find? fun found => found.appliesTo = appliesTo ∧ found.appliesToID = appliesToID) =
      second.find? fun found => found.appliesTo = appliesTo ∧ found.appliesToID = appliesToID := by
    refine Option.ext fun overwrite => ?_
    rw [find?_eq_some unique, find?_eq_some unique']
    constructor
    · rintro ⟨member, kind, target⟩
      exact ⟨(same overwrite kind target).mp member, kind, target⟩
    · rintro ⟨member, kind, target⟩
      exact ⟨(same overwrite kind target).mpr member, kind, target⟩
  unfold applyFirst
  rw [found]

end Overwrites

/-- The overwrite concerns a user with these roles. -/
def Overwrite.Concerns (overwrite : Overwrite) (guildID : ℤ) (roles : List Role) (userID : ℤ) : Prop :=
  match overwrite.appliesTo with
  | .role => overwrite.appliesToID = guildID ∨ ∃ role ∈ roles, role.id = overwrite.appliesToID
  | .member => overwrite.appliesToID = userID

/-- What a role is to the permissions of those who hold it. -/
def Role.grant (role : Role) : ℤ × Permissions := (role.id, role.permissions)

/-- The two lists of roles have the same ids with the same permissions. -/
def SameGrants (roles roles' : List Role) : Prop :=
  ∀ grant, grant ∈ roles.map Role.grant ↔ grant ∈ roles'.map Role.grant

namespace SameGrants

variable {roles roles' : List Role}

theorem of_mem_iff (same : ∀ role, role ∈ roles ↔ role ∈ roles') : SameGrants roles roles' := by
  intro grant
  simp [same]

theorem ids (same : SameGrants roles roles') (id : ℤ) : id ∈ roles.map Role.id ↔ id ∈ roles'.map Role.id := by
  have fst (list : List Role) : list.map Role.id = (list.map Role.grant).map Prod.fst := by simp [Role.grant]
  rw [fst, fst]
  simp only [mem_map (f := Prod.fst), same _]

theorem union (same : SameGrants roles roles') :
    unionOf Role.permissions roles = unionOf Role.permissions roles' := by
  have snd (list : List Role) : unionOf Role.permissions list = unionOf Prod.snd (list.map Role.grant) := by
    simp [unionOf, foldl_map, Role.grant]
  rw [snd, snd]
  exact unionOf_congr same

end SameGrants

variable {roles roles' : List Role} {overwrites overwrites' : List Overwrite}

/-- Permissions in a channel depend on which roles are held and on the overwrites that concern the
user, in whatever order they are listed. -/
theorem overwrittenPermissions_congr (base : Permissions) {guildID userID : ℤ} (held : SameGrants roles roles')
    (same : ∀ overwrite : Overwrite, overwrite.Concerns guildID roles userID →
      (overwrite ∈ overwrites ↔ overwrite ∈ overwrites'))
    (unique : OnePerTarget overwrites) (unique' : OnePerTarget overwrites') :
    overwrittenPermissions base guildID roles overwrites userID =
      overwrittenPermissions base guildID roles' overwrites' userID := by
  have everyone : applyFirst base overwrites .role guildID = applyFirst base overwrites' .role guildID := by
    refine applyFirst_congr base unique unique' fun overwrite kind target => same overwrite ?_
    unfold Overwrite.Concerns
    rw [kind]
    exact .inl target
  have ofRoles (overwrite : Overwrite) :
      overwrite ∈ roleOverwrites guildID roles overwrites ↔ overwrite ∈ roleOverwrites guildID roles' overwrites' := by
    simp only [roleOverwrites, mem_filter, decide_eq_true_eq, ← held.ids]
    refine and_congr_left fun ⟨kind, holder, _⟩ => same overwrite ?_
    unfold Overwrite.Concerns
    rw [kind]
    obtain ⟨role, member, id⟩ := mem_map.mp holder
    exact .inr ⟨role, member, id⟩
  unfold overwrittenPermissions
  rw [everyone, unionOf_congr ofRoles, unionOf_congr ofRoles]
  refine applyFirst_congr _ unique unique' fun overwrite kind target => same overwrite ?_
  unfold Overwrite.Concerns
  rw [kind]
  exact target

@[simp] theorem guild_memberAuthorityFromRoles (guild : GuildRow) (roles : List Role) (userID : ℤ) :
    (memberAuthorityFromRoles guild roles userID).guild = guild := by
  unfold memberAuthorityFromRoles
  split_ifs <;> rfl

@[simp] theorem isOwner_memberAuthorityFromRoles (guild : GuildRow) (roles : List Role) (userID : ℤ) :
    (memberAuthorityFromRoles guild roles userID).isOwner = decide (guild.ownerID = userID) := by
  unfold memberAuthorityFromRoles
  split_ifs with owner <;> simp [owner]

theorem channelPermissions_congr {guild guild' : GuildRow} {userID : ℤ} (id : guild.id = guild'.id)
    (owner : guild.ownerID = guild'.ownerID) (held : SameGrants roles roles')
    (same : ∀ overwrite : Overwrite, overwrite.Concerns guild.id roles userID →
      (overwrite ∈ overwrites ↔ overwrite ∈ overwrites'))
    (unique : OnePerTarget overwrites) (unique' : OnePerTarget overwrites') :
    channelPermissions (memberAuthorityFromRoles guild roles userID) roles overwrites userID =
      channelPermissions (memberAuthorityFromRoles guild' roles' userID) roles' overwrites' userID := by
  have permissions : (memberAuthorityFromRoles guild roles userID).permissions =
      (memberAuthorityFromRoles guild' roles' userID).permissions := by
    unfold memberAuthorityFromRoles
    rw [owner]
    split_ifs
    · rfl
    · exact congrArg withAdministrator held.union
  have free : (memberAuthorityFromRoles guild roles userID).unrestricted =
      (memberAuthorityFromRoles guild' roles' userID).unrestricted := by
    simp only [MemberAuthority.unrestricted, permissions, isOwner_memberAuthorityFromRoles, owner]
  unfold channelPermissions
  rw [free, permissions, guild_memberAuthorityFromRoles, guild_memberAuthorityFromRoles, ← id,
    overwrittenPermissions_congr _ held same unique unique']

/-- Whoever is unrestricted sees every channel. -/
theorem channelPermissions_unrestricted {authority : MemberAuthority} (free : authority.unrestricted = true)
    (roles : List Role) (overwrites : List Overwrite) (userID : ℤ) :
    channelPermissions authority roles overwrites userID = allGuildPermissions := by
  simp [channelPermissions, free]

end Cordis.Guild
