import Cordis.Guild.Traces

/-! # A ceiling for those who manage roles together

Some members of a guild, none of them the owner, manage its roles. Every handler compares what it is asked
for with the authority of its actor as it was when the transaction read it, so what it writes may rest on
old reads, of that authority or of the role that is to change. `Party.Contains` says that no version of a
role or of an assignment, committed or not, that these members profit from goes beyond a ceiling, and
`Party.Informed` what a transaction of theirs can have read; the results are that one statement keeps both.
-/

namespace Cordis.Guild

open GuildDatabase RowTable MemberAuthority List Option

section Ceiling

/-- No permission beyond the ceiling. -/
def Within (permissions ceiling : Permissions) : Prop := permissions &&& ~~~ceiling = 0
deriving Decidable

variable {permissions middle ceiling : Permissions}

theorem within_iff : Within permissions ceiling ↔ ∀ i, permissions.getLsbD i = true → ceiling.getLsbD i = true := by
  constructor
  · intro none i has
    have bit := congrArg (BitVec.getLsbD · i) none
    have small := BitVec.lt_of_getLsbD has
    simpa [has, small] using bit
  · intro bits
    refine BitVec.eq_of_getLsbD_eq fun i small => ?_
    have bit := bits i
    cases has : permissions.getLsbD i with
    | false => simp [has]
    | true => simp [bit has, small]

theorem Within.trans (within : Within permissions middle) (also : Within middle ceiling) : Within permissions ceiling := by
  rw [within_iff] at within also ⊢
  exact fun i has => also i (within i has)

theorem within_unionOf {α : Type} {word : α → Permissions} {values : List α} :
    Within (unionOf word values) ceiling ↔ ∀ value ∈ values, Within (word value) ceiling := by
  simp only [within_iff, getLsbD_unionOf, List.any_eq_true]
  constructor
  · exact fun union value member i has => union i ⟨value, member, has⟩
  · rintro each i ⟨value, member, has⟩
    exact each value member i has

theorem within_or_left : Within permissions (permissions ||| ceiling) := by
  rw [within_iff]
  intro i has
  simp [has]

theorem within_or_right : Within permissions (ceiling ||| permissions) := by
  rw [BitVec.or_comm]
  exact within_or_left

theorem within_self : Within permissions permissions := by
  rw [within_iff]
  exact fun _ has => has

theorem and_administrator_eq_zero : permissions &&& permissionAdministrator = 0 ↔ permissions.getLsbD 0 = false := by
  have single : permissionAdministrator = BitVec.twoPow 64 0 := by decide
  rw [single, BitVec.and_twoPow]
  cases permissions.getLsbD 0 <;> decide

theorem and_administrator_of_within (within : Within permissions ceiling)
    (limited : ceiling &&& permissionAdministrator = 0) : permissions &&& permissionAdministrator = 0 := by
  rw [and_administrator_eq_zero] at limited ⊢
  rw [within_iff] at within
  by_contra has
  rw [Bool.not_eq_false] at has
  rw [within 0 has] at limited
  cases limited

theorem highestPosition_le {roles : List Role} {top : ℕ} :
    highestPosition roles ≤ top ↔ ∀ role ∈ roles, role.isDefault = false → role.position ≤ top := by
  have general (start : ℕ) : roles.foldl
      (fun highest role => if !role.isDefault && highest < role.position then role.position else highest) start ≤ top ↔
        start ≤ top ∧ ∀ role ∈ roles, role.isDefault = false → role.position ≤ top := by
    induction roles generalizing start with
    | nil => simp
    | cons role roles ih =>
      rw [foldl_cons, ih]
      simp only [forall_mem_cons]
      cases isDefault : role.isDefault with
      | true => simp
      | false =>
        by_cases higher : start < role.position
        · simp only [Bool.not_false, higher, decide_true, Bool.and_self, ↓reduceIte, true_imp_iff, ← and_assoc]
          refine and_congr_left fun _ => ?_
          omega
        · simp only [Bool.not_false, higher, decide_false, Bool.and_false, Bool.false_eq_true, ↓reduceIte, true_imp_iff,
            ← and_assoc]
          refine and_congr_left fun _ => ?_
          omega
  have fromZero := general 0
  simpa [highestPosition] using fromZero

end Ceiling

section Party

/-- Some users of a guild, the ceiling of their permissions and of the positions of their roles, and the
roles there were at the start. -/
structure Party where
  guildID : ℤ
  users : List ℤ
  ceiling : Permissions
  top : ℕ
  start : ℤ → Option Role

namespace Party

variable (party : Party)

/-- A role at or above the top. -/
structure High (roleID : ℤ) (role : Role) : Prop where
  start : party.start roleID = some role
  guild : role.guildID = party.guildID
  plain : role.isDefault = false
  above : party.top ≤ role.position

/-- Whoever is an administrator below the ceiling has everything below it. -/
def Unlimited : Prop := party.ceiling &&& permissionAdministrator ≠ 0

/-- The authority stays below the ceiling. -/
structure Modest (authority : MemberAuthority) : Prop where
  notOwner : authority.isOwner = false
  within : Within authority.permissions party.ceiling
  highest : authority.highestRole ≤ party.top

/-- Whatever version of the role counts, its holders stay below the ceiling. -/
def Tame (db : GuildDatabase) (roleID : ℤ) : Prop :=
  ∀ reader role, db.roles.find reader roleID = some role → role.guildID = party.guildID → role.deleted = false →
    Within role.permissions party.ceiling ∧ (role.isDefault = false → role.position ≤ party.top)

/-- What holds of the tables, in the eyes of every transaction. -/
structure Contains (db : GuildDatabase) : Prop where
  capped : party.Unlimited → Within allGuildPermissions party.ceiling
  owner : ∀ reader guild, db.guilds.find reader party.guildID = some guild → guild.ownerID ∉ party.users
  high : ∀ roleID role, party.High roleID role → ∀ reader, db.roles.find reader roleID = some role
  /-- A role that stands at or above the top has never changed. -/
  low : ∀ reader roleID role, db.roles.find reader roleID = some role → role.guildID = party.guildID →
    role.isDefault = false → party.top ≤ role.position → party.start roleID = some role
  everyone : party.users ≠ [] → ∀ reader roleID role, db.roles.find reader roleID = some role →
    role.guildID = party.guildID → role.deleted = false → role.isDefault = true → Within role.permissions party.ceiling
  assigned : ∀ reader assignment, db.memberRoles.find reader assignment = some assignment →
    assignment.guildID = party.guildID → assignment.userID ∈ party.users → party.Tame db assignment.roleID
  /-- An uncommitted version of a role brings no permissions but those that are committed or below the
  ceiling. -/
  pending : ∀ tx roleID role, db.roles.Holds tx roleID (some role) → role.guildID = party.guildID →
    Within role.permissions party.ceiling ∨
      ∃ old, db.roles.find none roleID = some old ∧ old.guildID = party.guildID ∧ old.permissions = role.permissions
  all : party.Unlimited → ∀ reader roleID role, db.roles.find reader roleID = some role →
    role.guildID = party.guildID → Within role.permissions party.ceiling

/-- What a transaction has read. -/
structure Informed (db : GuildDatabase) (request : GuildRequest) (log : StatementLog) : Prop where
  aboutRoles : request.roleActor.isSome = true
  actor : ∀ actor, request.roleActor = some (party.guildID, actor) → actor ∈ party.users
  owner : ∀ userID ∈ party.users, ∀ guild, ⟨.query (.getGuildForMember party.guildID userID), some guild⟩ ∈ log →
    guild.ownerID ∉ party.users
  memberRoles : ∀ userID ∈ party.users, ∀ roles, ⟨.query (.listGuildMemberRoles party.guildID userID), roles⟩ ∈ log →
    ∀ role ∈ roles, Within role.permissions party.ceiling ∧ (role.isDefault = false → role.position ≤ party.top)
  role : ∀ roleID role, ⟨.query (.getGuildRole party.guildID roleID), some role⟩ ∈ log →
    ∀ high, party.High roleID high → role = high
  /-- A role that may be assigned stays as harmless as it has been found. -/
  tame : request.Assigns = true → ∀ roleID role, ⟨.query (.getGuildRole party.guildID roleID), some role⟩ ∈ log →
    Within role.permissions party.ceiling ∨ party.Unlimited → role.isDefault = false → role.position < party.top →
    party.Tame db roleID
  roles : ∀ roles, ⟨.query (.listGuildRoles party.guildID), roles⟩ ∈ log →
    ∀ role ∈ roles, ∀ high, party.High role.id high → role = high

end Party

variable {party : Party} {db next : GuildDatabase} {request : GuildRequest} {log : StatementLog} {userID : ℤ}

theorem modest_of_roles {guild : GuildRow} {roles : List Role} (owner : guild.ownerID ≠ userID)
    (capped : party.Unlimited → Within allGuildPermissions party.ceiling)
    (each : ∀ role ∈ roles, Within role.permissions party.ceiling ∧ (role.isDefault = false → role.position ≤ party.top)) :
    party.Modest (memberAuthorityFromRoles guild roles userID) := by
  rw [memberAuthorityFromRoles, if_neg owner]
  have within : Within (unionOf Role.permissions roles) party.ceiling :=
    within_unionOf.mpr fun role member => (each role member).1
  refine ⟨rfl, ?_, highestPosition_le.mpr fun role member => (each role member).2⟩
  -- an administrator has all permissions, which such a ceiling has too
  unfold withAdministrator
  split_ifs with administrator
  · exact capped fun limited => administrator (and_administrator_of_within within limited)
  · exact within

variable {authority : MemberAuthority}

/-- What an authority below the ceiling can grant is below it. -/
theorem Party.Modest.within_of_canGrant {permissions : Permissions}
    (modest : party.Modest authority) (grants : authority.canGrantPermissions permissions = true) :
    Within permissions party.ceiling ∨ party.Unlimited := by
  by_cases limited : party.ceiling &&& permissionAdministrator = 0
  · have noAdministrator := and_administrator_of_within modest.within limited
    simp only [canGrantPermissions, unrestricted, modest.notOwner, noAdministrator, ne_eq,
      not_true_eq_false, decide_false, Bool.or_self, Bool.false_or, decide_eq_true_eq] at grants
    exact .inl (Within.trans grants modest.within)
  · exact .inr limited

theorem Party.Modest.lt_of_canManageRole {role : Role} (modest : party.Modest authority)
    (manages : authority.canManageRole role = true) : role.isDefault = false ∧ role.position < party.top := by
  simp only [canManageRole, modest.notOwner, Bool.false_or, Bool.and_eq_true, Bool.not_eq_true',
    decide_eq_true_eq] at manages
  exact ⟨manages.1, manages.2.trans_le modest.highest⟩

theorem Party.High.not_managed {roleID : ℤ} {role : Role} (high : party.High roleID role)
    (modest : party.Modest authority) (manages : authority.canManageRole role = true) : False :=
  absurd high.above (Nat.not_le.mpr (modest.lt_of_canManageRole manages).2)

/-- The actor of a request in the guild stays below the ceiling. -/
theorem Party.Informed.modest (informed : party.Informed db request log)
    (capped : party.Unlimited → Within allGuildPermissions party.ceiling) {guildID : ℤ}
    (read : ActorRead request log guildID authority) (same : guildID = party.guildID) : party.Modest authority := by
  subst same
  obtain ⟨actor, isActor, guild, roles, loaded, listed, rfl⟩ := read
  have user := informed.actor actor isActor
  have owner : guild.ownerID ≠ actor := fun owner => informed.owner actor user guild loaded (owner ▸ user)
  exact modest_of_roles owner capped (informed.memberRoles actor user roles (listed owner))

section Exec

variable {limits : GuildLimits} {tx : ℕ} {statement : Statement} {reply : statement.Reply}

/-- A written version of a role of the guild stands below the top, and has permissions below the ceiling or
those of the version it replaces. -/
structure Party.Harmless (party : Party) (db : GuildDatabase) (tx : ℕ) (roleID : ℤ) (role : Role) : Prop where
  below : role.isDefault = false → role.position < party.top
  permissions : Within role.permissions party.ceiling ∨ ∃ old, db.roles.find (some tx) roleID = some old ∧
    old.guildID = party.guildID ∧ old.permissions = role.permissions ∧ old.isDefault = role.isDefault ∧
    (role.deleted = false → old.deleted = false)

theorem Party.Informed.of_tame (informed : party.Informed db request log)
    (tame : ∀ roleID, party.Tame db roleID → party.Tame next roleID) : party.Informed next request log :=
  { informed with
    tame := fun assigns roleID role read within plain lower =>
      tame roleID (informed.tame assigns roleID role read within plain lower) }

variable (contains : party.Contains db)

include contains

variable {role : Role} {roleID : ℤ} {reader : Option ℕ}

/-- The roles of a user of the party, as any transaction sees them. -/
theorem Party.Contains.memberRoles (user : userID ∈ party.users)
    (listed : role ∈ (db.view reader).listGuildMemberRoles party.guildID userID) :
    Within role.permissions party.ceiling ∧ (role.isDefault = false → role.position ≤ party.top) := by
  simp only [GuildTables.listGuildMemberRoles, mem_orderBy, mem_filter, decide_eq_true_eq] at listed
  obtain ⟨row, guild, live, default | assigned⟩ := listed
  · refine ⟨contains.everyone (ne_nil_of_mem user) _ _ role (mem_view_roles.mp row) guild live default, ?_⟩
    intro plain
    rw [default] at plain
    cases plain
  · have found := mem_view_memberRoles.mp assigned
    exact contains.assigned reader _ found rfl user reader role (mem_view_roles.mp row) guild live

/-- A role that a transaction without versions of its own finds harmless is harmless in every version. -/
theorem Party.Contains.tame_of_committed (found : db.roles.find none roleID = some role)
    (within : Within role.permissions party.ceiling ∨ party.Unlimited) (lower : role.position < party.top) :
    party.Tame db roleID := by
  intro reader version seen same _
  constructor
  · rcases within with within | unlimited
    · cases reader with
      | none =>
        cases found.symm.trans seen
        exact within
      | some tx =>
        rcases db.roles.find_cases tx roleID with ⟨value, held, mine⟩ | ⟨_, committed⟩
        · cases mine.symm.trans seen
          rcases contains.pending tx roleID version held same with within | ⟨old, before, _, alike⟩
          · exact within
          · cases found.symm.trans before
            exact alike ▸ within
        · cases found.symm.trans (committed.symm.trans seen)
          exact within
    · exact contains.all unlimited reader roleID version seen same
  · intro plain
    by_contra above
    have above := Nat.le_of_not_le above
    have isHigh : party.High roleID version := ⟨contains.low _ _ _ seen same plain above, same, plain, above⟩
    cases found.symm.trans (contains.high _ _ isHigh none)
    omega

variable (informed : party.Informed db request log)

include informed

/-- What a query tells is below the ceiling. -/
theorem Party.Informed.cons (ran : db.exec limits tx statement = some (next, reply))
    (free : request.Assigns = true → ∀ roleID value, ¬ db.roles.Holds tx roleID value) :
    party.Informed db request (⟨statement, reply⟩ :: log) where
  aboutRoles := informed.aboutRoles
  actor := informed.actor
  owner userID user guild read := by
    rcases mem_cons.mp read with new | old
    · cases new
      obtain ⟨_, loaded⟩ := exec_query_eq_some.mp ran
      exact contains.owner _ guild (of_getGuildForMember loaded.symm).1
    · exact informed.owner userID user guild old
  memberRoles userID user roles read role member := by
    rcases mem_cons.mp read with new | old
    · cases new
      obtain ⟨_, rfl⟩ := exec_query_eq_some.mp ran
      exact contains.memberRoles user member
    · exact informed.memberRoles userID user roles old role member
  role roleID role read high isHigh := by
    rcases mem_cons.mp read with new | old
    · cases new
      obtain ⟨_, loaded⟩ := exec_query_eq_some.mp ran
      obtain ⟨found, _⟩ := of_getGuildRole loaded.symm
      exact some.inj (found.symm.trans (contains.high _ _ isHigh _))
    · exact informed.role roleID role old high isHigh
  tame assigns roleID role read within plain lower := by
    rcases mem_cons.mp read with new | old
    · cases new
      obtain ⟨_, loaded⟩ := exec_query_eq_some.mp ran
      obtain ⟨found, _⟩ := of_getGuildRole loaded.symm
      rw [find_of_not_holds (free assigns roleID)] at found
      exact contains.tame_of_committed found within lower
    · exact informed.tame assigns roleID role old within plain lower
  roles roles read role member high isHigh := by
    rcases mem_cons.mp read with new | old
    · cases new
      obtain ⟨_, rfl⟩ := exec_query_eq_some.mp ran
      simp only [Query.run, GuildTables.listGuildRoles, mem_orderBy, mem_filter] at member
      have found := mem_view_roles.mp member.1
      exact some.inj (found.symm.trans (contains.high _ _ isHigh _))
    · exact informed.roles roles old role member high isHigh

variable (may : Allowed request log statement)

include may

/-- A role at or above the top is not written. -/
theorem Party.Informed.not_high {value : Option Role}
    (written : RoleWrites (db.view (some tx)) statement roleID value) {high : Role} (isHigh : party.High roleID high) :
    False := by
  have seen := contains.high _ _ isHigh (some tx)
  cases written with
  | creates fresh =>
    have id : high.id = _ := key_of_find seen
    rw [← id] at fresh seen
    exact fresh (mem_map_of_mem (mem_view_roles.mpr seen))
  | updates loaded =>
    obtain ⟨found, guild, _⟩ := of_getGuildRole loaded
    have id : _ = _ := key_of_find found
    rw [id] at isHigh seen
    cases found.symm.trans seen
    obtain ⟨_, authority, role, read, roleRead, manages, _⟩ := may
    have same := guild.symm.trans isHigh.guild
    subst same
    obtain rfl := informed.role _ _ roleRead _ isHigh
    rcases manages with default | manages
    · rw [isHigh.plain] at default
      cases default
    · exact isHigh.not_managed (informed.modest contains.capped read rfl) manages
  | moves row moved =>
    cases (mem_view_roles.mp row).symm.trans seen
    simp only [GuildTables.UpdatesPosition, decide_eq_true_eq] at moved
    obtain ⟨guild, _, _, requested⟩ := moved
    obtain ⟨position, requested⟩ := isSome_iff_exists.mp requested
    obtain ⟨_, authority, roles, read, rolesRead, moves⟩ := may
    obtain ⟨role, member, id, _, manages, _⟩ := moves _ (mem_of_lookup requested)
    have same := guild.symm.trans isHigh.guild
    subst same
    have sameID : role.id = high.id := id
    obtain rfl := informed.roles _ rolesRead role member high (sameID ▸ isHigh)
    exact isHigh.not_managed (informed.modest contains.capped read rfl) manages
  | deletes loaded plain =>
    obtain ⟨found, guild, _⟩ := of_getGuildRole loaded
    have id : _ = _ := key_of_find found
    rw [id] at isHigh seen
    cases found.symm.trans seen
    obtain ⟨_, authority, role, read, roleRead, _, manages⟩ := may
    have same := guild.symm.trans isHigh.guild
    subst same
    obtain rfl := informed.role _ _ roleRead _ isHigh
    exact isHigh.not_managed (informed.modest contains.capped read rfl) manages

/-- What is written of a role of the guild is harmless. -/
theorem Party.Informed.harmless
    (written : RoleWrites (db.view (some tx)) statement roleID (some role)) (guild : role.guildID = party.guildID) :
    party.Harmless db tx roleID role := by
  have notHigh {high : Role} (isHigh : party.High roleID high) : False := informed.not_high contains may written isHigh
  -- A version that stands at or above the top would be one from the start.
  have below {old : Role} (found : db.roles.find (some tx) roleID = some old) (guild : old.guildID = party.guildID)
      (plain : old.isDefault = false) : old.position < party.top := by
    by_contra above
    have start := contains.low _ _ _ found guild plain (Nat.le_of_not_lt above)
    exact notHigh ⟨start, guild, plain, Nat.le_of_not_lt above⟩
  have granted {authority : MemberAuthority} {permissions : Permissions} (modest : party.Modest authority)
      (known : permissions &&& ~~~allGuildPermissions = 0) (grants : authority.canGrantPermissions permissions = true) :
      Within permissions party.ceiling := by
    rcases modest.within_of_canGrant grants with within | unlimited
    · exact within
    · exact Within.trans known (contains.capped unlimited)
  cases written with
  | creates fresh =>
    obtain ⟨_, authority, read, known, grants, _, _, placed⟩ := may
    have modest := informed.modest contains.capped read guild
    refine ⟨fun _ => ?_, .inl (granted modest known grants)⟩
    rcases placed with owner | position
    · rw [modest.notOwner] at owner
      cases owner
    · exact position.trans_le modest.highest
  | @updates guildID wanted requested old loaded =>
    obtain ⟨found, sameGuild, _⟩ := of_getGuildRole loaded
    have id : old.id = wanted := key_of_find found
    subst id
    obtain ⟨_, authority, role, read, _, _, grants⟩ := may
    have lower := below found guild
    refine ⟨lower, ?_⟩
    cases requested with
    | none => exact .inr ⟨old, found, guild, rfl, rfl, fun live => live⟩
    | some permissions =>
      have modest := informed.modest contains.capped read (sameGuild.symm.trans guild)
      obtain ⟨known, grants⟩ := grants permissions rfl
      exact .inl (granted modest known grants)
  | @moves guildID positions seen old row moved =>
    have found := mem_view_roles.mp row
    refine ⟨fun plain => ?_, .inr ⟨old, found, guild, rfl, rfl, fun live => live⟩⟩
    simp only [GuildTables.UpdatesPosition, decide_eq_true_eq] at moved
    obtain ⟨sameGuild, _, _, requested⟩ := moved
    obtain ⟨position, requested⟩ := isSome_iff_exists.mp requested
    obtain ⟨_, authority, roles, read, _, moves⟩ := may
    obtain ⟨role, _, _, _, _, placed⟩ := moves _ (mem_of_lookup requested)
    have modest := informed.modest contains.capped read (sameGuild.symm.trans guild)
    simp only [requested, getD_some]
    rcases placed with owner | lower
    · rw [modest.notOwner] at owner
      cases owner
    · exact lower.trans_le modest.highest
  | @deletes guildID wanted old loaded plain =>
    obtain ⟨found, _, _⟩ := of_getGuildRole loaded
    have id : old.id = wanted := key_of_find found
    subst id
    have lower := below found guild plain
    exact ⟨fun _ => lower, .inr ⟨old, found, guild, rfl, rfl, fun live => by cases live⟩⟩

variable (ran : db.exec limits tx statement = some (next, reply))

include ran

/-- A version of a role after a statement is one from before, or a harmless one. -/
theorem Party.Informed.version
    (found : next.roles.find reader roleID = some role) (guild : role.guildID = party.guildID) :
    db.roles.find reader roleID = some role ∨ party.Harmless db tx roleID role := by
  rcases (roles_exec ran).find reader roleID with same | ⟨_, written⟩
  · exact .inl (same.symm.trans found)
  · rw [found] at written
    exact .inr (informed.harmless contains may written guild)

theorem Party.Tame.exec (tame : party.Tame db roleID) : party.Tame next roleID := by
  intro reader role found guild live
  rcases informed.version contains may ran found guild with before | harmless
  · exact tame reader role before guild live
  · refine ⟨?_, fun plain => (harmless.below plain).le⟩
    rcases harmless.permissions with within | ⟨old, before, oldGuild, same, _, oldLive⟩
    · exact within
    · exact same ▸ (tame _ old before oldGuild (oldLive live)).1

theorem Party.Contains.exec : party.Contains next where
  capped := contains.capped
  owner reader guild found := by
    rcases (guilds_exec ran).find reader party.guildID with same | ⟨_, written⟩
    · exact contains.owner _ guild (same.symm.trans found)
    · rw [found] at written
      generalize guildID : party.guildID = key at written
      cases written with
      | bumps row =>
        have before := mem_rows.mp row
        rw [← guildID] at before
        have owner := contains.owner (some tx) _ before
        exact owner
      | transfers loaded =>
        have aboutRoles := informed.aboutRoles
        rw [may.1] at aboutRoles
        cases aboutRoles
  high roleID role isHigh reader := by
    rcases (roles_exec ran).find reader roleID with same | ⟨_, written⟩
    · exact same.trans (contains.high _ _ isHigh _)
    · exact (informed.not_high contains may written isHigh).elim
  low reader roleID role found guild plain above := by
    rcases informed.version contains may ran found guild with before | harmless
    · exact contains.low reader roleID role before guild plain above
    · exact absurd above (Nat.not_le.mpr (harmless.below plain))
  everyone some reader roleID role found guild live default := by
    rcases informed.version contains may ran found guild with before | harmless
    · exact contains.everyone some reader roleID role before guild live default
    · rcases harmless.permissions with within | ⟨old, before, oldGuild, same, sameDefault, oldLive⟩
      · exact within
      · exact same ▸ contains.everyone some _ roleID old before oldGuild (oldLive live) (sameDefault.trans default)
  assigned reader assignment found guild user := by
    refine Party.Tame.exec contains informed may ran ?_
    rcases (memberRoles_exec ran).find reader assignment with same | ⟨_, written⟩
    · exact contains.assigned _ assignment (same.symm.trans found) guild user
    · rw [found] at written
      cases written
      -- a role that is assigned has been found harmless
      obtain ⟨⟨assigns, _⟩, authority, role, ⟨read, roleRead, plain, manages⟩, grants⟩ := may
      rw [guild] at read roleRead
      have modest := informed.modest contains.capped read rfl
      exact informed.tame assigns _ role roleRead (modest.within_of_canGrant grants) plain
        (modest.lt_of_canManageRole manages).2
  pending owner roleID role held guild := by
    have committed : next.roles.find none roleID = db.roles.find none roleID := (roles_exec ran).find_of_ne (by simp) _
    rw [committed]
    rcases (roles_exec ran).holds held with before | ⟨rfl, written⟩
    · exact contains.pending owner roleID role before guild
    · rcases (informed.harmless contains may written guild).permissions with within | ⟨old, found, oldGuild, same, _⟩
      · exact .inl within
      · rcases db.roles.find_cases owner roleID with ⟨value, before, seen⟩ | ⟨_, seen⟩
        · cases seen.symm.trans found
          rcases contains.pending owner roleID old before oldGuild with within | ⟨older, found, olderGuild, alike⟩
          · exact .inl (same ▸ within)
          · exact .inr ⟨older, found, olderGuild, alike.trans same⟩
        · exact .inr ⟨old, seen.symm.trans found, oldGuild, same⟩
  all unlimited reader roleID role found guild := by
    rcases informed.version contains may ran found guild with before | harmless
    · exact contains.all unlimited reader roleID role before guild
    · rcases harmless.permissions with within | ⟨old, before, oldGuild, same, _⟩
      · exact within
      · exact same ▸ contains.all unlimited _ roleID old before oldGuild

end Exec

end Party

end Cordis.Guild
