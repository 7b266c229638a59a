import Cordis.Guild.RoleCeiling
import Mathlib.Data.List.MinMax

/-! # Members who manage roles together do not climb

Some members of a guild, none of them the owner, manage its roles in any number of transactions, in any
interleaving. The permissions that they had together at the start and the highest position among their
roles are a ceiling for each of them in every state, and no role at or above that position changes.

The default role is an exception to the last part. It stands at position zero, and whoever manages roles may
change its permissions, also a member without any other role.
-/

namespace Cordis.Guild

open RowTable GuildDatabase GuildTables List

section Party

variable {party : Party} {db next : GuildDatabase} {request : GuildRequest} {log : StatementLog}

section Readers

/-- What every reader sees afterwards, some reader has seen before, and who holds a row has held it while
the committed one stays. -/
theorem Party.Tame.of_readers {roleID : ℤ} (tame : party.Tame db roleID)
    (roles : ∀ reader, ∃ before, next.roles.find reader roleID = db.roles.find before roleID) : party.Tame next roleID := by
  intro reader role found guild
  obtain ⟨before, same⟩ := roles reader
  exact tame before role (same.symm.trans found) guild

theorem Party.Contains.of_readers (contains : party.Contains db)
    (guilds : ∀ reader key, ∃ before, next.guilds.find reader key = db.guilds.find before key)
    (roles : ∀ reader key, ∃ before, next.roles.find reader key = db.roles.find before key)
    (memberRoles : ∀ reader key, ∃ before, next.memberRoles.find reader key = db.memberRoles.find before key)
    (holds : ∀ tx key value, next.roles.Holds tx key value →
      db.roles.Holds tx key value ∧ next.roles.find none key = db.roles.find none key) : party.Contains next where
  capped := contains.capped
  owner reader guild found := by
    obtain ⟨before, same⟩ := guilds reader party.guildID
    exact contains.owner before guild (same.symm.trans found)
  high roleID role isHigh reader := by
    obtain ⟨before, same⟩ := roles reader roleID
    exact same.trans (contains.high roleID role isHigh before)
  low reader roleID role found := by
    obtain ⟨before, same⟩ := roles reader roleID
    exact contains.low before roleID role (same.symm.trans found)
  everyone some reader roleID role found := by
    obtain ⟨before, same⟩ := roles reader roleID
    exact contains.everyone some before roleID role (same.symm.trans found)
  assigned reader assignment found guild user := by
    obtain ⟨before, same⟩ := memberRoles reader assignment
    exact (contains.assigned before assignment (same.symm.trans found) guild user).of_readers fun reader => roles reader _
  pending tx roleID role held := by
    obtain ⟨before, same⟩ := holds tx roleID _ held
    rw [same]
    exact contains.pending tx roleID role before
  all unlimited reader roleID role found := by
    obtain ⟨before, same⟩ := roles reader roleID
    exact contains.all unlimited before roleID role (same.symm.trans found)

theorem Party.Contains.commit (contains : party.Contains db) (tx : ℕ) : party.Contains (db.commit tx) := by
  refine contains.of_readers (db.guilds.exists_find_commit tx) (db.roles.exists_find_commit tx)
    (db.memberRoles.exists_find_commit tx) fun other key value held => ?_
  obtain ⟨before, ne⟩ := holds_commit.mp held
  exact ⟨before, find_of_not_holds fun _ also => ne (also.unique before).1⟩

theorem Party.Contains.rollback (contains : party.Contains db) (tx : ℕ) : party.Contains (db.rollback tx) := by
  refine contains.of_readers (db.guilds.exists_find_rollback tx) (db.roles.exists_find_rollback tx)
    (db.memberRoles.exists_find_rollback tx) fun other key value held => ?_
  exact ⟨(holds_rollback.mp held).1, rfl⟩

end Readers

section Invariant

/-- What keeps the party below its ceiling. -/
structure EscalationInvariant (party : Party) (life : ℤ → Option Bool) (state : GuildServiceState) : Prop where
  traced : Traced life state
  contains : party.Contains state.store
  informed : state.running.All fun _ task => party.Informed state.store task.request task.log
  /-- Who changes a role assigns none. -/
  edits : ∀ tx roleID value, state.store.roles.Holds tx roleID value →
    ∃ task, state.running tx = some task ∧ task.request.Assigns = false

/-- A request about roles whose actor, if it is in the guild of the party, is one of its users. -/
def Party.Requests (party : Party) : ServiceEvent GuildRequest → Prop
  | .begin _ request => request.roleActor.isSome = true ∧
      ∀ actor ∈ request.roleActor, actor.1 = party.guildID → actor.2 ∈ party.users
  | _ => True

instance (party : Party) (event : ServiceEvent GuildRequest) : Decidable (party.Requests event) := by
  cases event <;> unfold Party.Requests <;> infer_instance

variable {limits : GuildLimits} {life : ℤ → Option Bool} {state next : GuildServiceState}
variable {event : ServiceEvent GuildRequest}

/-- The statements that write roles are not issued by those who assign them. -/
theorem RoleWrites.assigns {tables : GuildTables} {statement : Statement} {roleID : ℤ} {value : Option Role}
    (written : RoleWrites tables statement roleID value) (may : Allowed request log statement) : request.Assigns = false := by
  cases written <;> exact may.1

theorem EscalationInvariant.step (inv : EscalationInvariant party life state) (requests : party.Requests event)
    (step : (guildService limits).machine.step state event = some next) : EscalationInvariant party life next := by
  have traced := inv.traced.step step
  cases Service.transition_step step with
  | @begin id request fresh =>
    refine ⟨traced, inv.contains, inv.informed.set ?_, fun tx roleID value held => ?_⟩
    · exact ⟨requests.1, fun actor isActor => requests.2 _ isActor rfl, by simp, by simp, by simp, by simp, by simp⟩
    · exact inv.traced.listed.exists_begin fresh (inv.edits tx roleID value held)
  | @exec id request log statement rest store reply current ran =>
    have may : Allowed request log statement := (inv.traced.disciplined _ _ current).1
    have informed : party.Informed state.store request log := inv.informed _ _ current
    have free (assigns : request.Assigns = true) (roleID : ℤ) (value : Option Role) :
        ¬ state.store.roles.Holds id roleID value := by
      intro held
      obtain ⟨task, running, edits⟩ := inv.edits id roleID value held
      cases current.symm.trans running
      rw [assigns] at edits
      cases edits
    have tame (roleID : ℤ) (tame : party.Tame state.store roleID) : party.Tame store roleID :=
      tame.exec inv.contains informed may ran
    refine ⟨traced, inv.contains.exec informed may ran, ?_, fun tx roleID value held => ?_⟩
    · exact .set_of ((informed.cons inv.contains ran free).of_tame tame)
        fun other task _ running => (inv.informed other task running).of_tame tame
    · rcases (roles_exec ran).holds held with before | ⟨rfl, written⟩
      · exact Pool.exists_set current (fun _ edits => edits) (inv.edits tx roleID value before)
      · exact ⟨_, Pool.set_self .., written.assigns may⟩
  | @commit id request log value current =>
    refine ⟨traced, inv.contains.commit id, ?_, fun tx roleID value held => ?_⟩
    · exact .drop_of fun other task _ running => (inv.informed other task running).of_tame fun roleID tame =>
        tame.of_readers fun reader => state.store.roles.exists_find_commit id reader roleID
    · obtain ⟨before, ne⟩ := holds_commit.mp held
      simpa only [Pool.drop_of_ne _ ne] using inv.edits tx roleID value before
  | @rollback id task current =>
    refine ⟨traced, inv.contains.rollback id, ?_, fun tx roleID value held => ?_⟩
    · exact .drop_of fun other task _ running => (inv.informed other task running).of_tame fun roleID tame =>
        tame.of_readers fun reader => state.store.roles.exists_find_rollback id reader roleID
    · obtain ⟨before, ne⟩ := holds_rollback.mp held
      simpa only [Pool.drop_of_ne _ ne] using inv.edits tx roleID value before

end Invariant

end Party

section Start

variable (tables : GuildTables) (guildID : ℤ) (users : List ℤ)

def GuildTables.permissionsOf (userID : ℤ) : Permissions :=
  match tables.loadMemberAuthority guildID userID with
  | .ok authority => authority.permissions
  | .error _ => 0

def GuildTables.highestRoleOf (userID : ℤ) : ℕ :=
  match tables.loadMemberAuthority guildID userID with
  | .ok authority => authority.highestRole
  | .error _ => 0

/-- The permissions that the users have together. An administrator among them has all permissions, and
can give away whatever is stored in a role of the guild. -/
def GuildTables.jointPermissions : Permissions :=
  if unionOf (tables.permissionsOf guildID) users &&& permissionAdministrator ≠ 0 then
    allGuildPermissions ||| unionOf Role.permissions (tables.roles.filter fun role => role.guildID = guildID)
  else unionOf (tables.permissionsOf guildID) users

/-- The highest position of the users' roles. -/
def GuildTables.jointHighestRole : ℕ := (users.map (tables.highestRoleOf guildID)).foldr max 0

/-- The users are members of the guild, and none is its owner. -/
def GuildTables.NonOwnerMembers : Prop :=
  ∀ userID ∈ users, ∃ authority, tables.loadMemberAuthority guildID userID = .ok authority ∧ authority.isOwner = false

variable {tables guildID users} {userID : ℤ}

/-- A loaded authority that is not the owner's. -/
theorem loadMemberAuthority_eq_ok {authority : MemberAuthority}
    (loaded : tables.loadMemberAuthority guildID userID = .ok authority) : ∃ guild,
      tables.getGuildForMember guildID userID = some guild ∧
        (guild.ownerID = userID ∧ authority.isOwner = true ∨ guild.ownerID ≠ userID ∧
          authority = memberAuthorityFromRoles guild (tables.listGuildMemberRoles guildID userID) userID) := by
  obtain ⟨⟨_, roles⟩, both, rfl⟩ := Go.map_eq_ok.mp loaded
  obtain ⟨guild, row, result⟩ := Go.map_eq_ok.mp both
  refine ⟨guild, found_eq_ok.mp row, ?_⟩
  split_ifs at result with owner
  · cases result
    exact .inl ⟨owner, by simp [owner]⟩
  · cases result
    exact .inr ⟨owner, rfl⟩

/-- At the start the users' roles are below the joint ceiling. -/
theorem GuildTables.NonOwnerMembers.within (members : tables.NonOwnerMembers guildID users)
    (user : userID ∈ users) {role : Role} (listed : role ∈ tables.listGuildMemberRoles guildID userID) :
    Within role.permissions (tables.jointPermissions guildID users) ∧
      (role.isDefault = false → role.position ≤ tables.jointHighestRole guildID users) := by
  obtain ⟨authority, loaded, notOwner⟩ := members userID user
  obtain ⟨guild, _, ⟨_, owner⟩ | ⟨other, same⟩⟩ := loadMemberAuthority_eq_ok loaded
  · rw [notOwner] at owner
    cases owner
  rw [memberAuthorityFromRoles, if_neg other] at same
  have permissions : tables.permissionsOf guildID userID =
      withAdministrator (unionOf Role.permissions (tables.listGuildMemberRoles guildID userID)) := by
    simp only [permissionsOf, loaded, same]
  have highest : tables.highestRoleOf guildID userID = highestPosition (tables.listGuildMemberRoles guildID userID) := by
    simp only [highestRoleOf, loaded, same]
  constructor
  · have inUnion : Within (tables.permissionsOf guildID userID) (unionOf (tables.permissionsOf guildID) users) :=
      within_unionOf.mp within_self userID user
    unfold jointPermissions
    split_ifs with administrator
    · have stored : role ∈ tables.roles.filter fun role => role.guildID = guildID := by
        simp only [listGuildMemberRoles, mem_orderBy, mem_filter, decide_eq_true_eq] at listed
        exact mem_filter.mpr ⟨listed.1, by simpa using listed.2.1⟩
      exact (within_unionOf.mp within_self role stored).trans within_or_right
    · have none := and_administrator_of_within inUnion (not_not.mp administrator)
      rw [permissions, withAdministrator] at inUnion none
      split_ifs at inUnion none with has
      · exact absurd none (by decide)
      · exact (within_unionOf.mp within_self role listed).trans inUnion
  · intro plain
    have position := highestPosition_le.mp highest.ge role listed plain
    exact le_max_of_le' 0 (mem_map_of_mem user) position

/-- The users with what they have at the start. -/
def GuildTables.party (tables : GuildTables) (guildID : ℤ) (users : List ℤ) : Party where
  guildID
  users
  ceiling := (tables.initial.store.view none).jointPermissions guildID users
  top := (tables.initial.store.view none).jointHighestRole guildID users
  start := tables.initial.store.roles.find none

end Start

end Cordis.Guild
