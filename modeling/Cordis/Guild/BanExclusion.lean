import Cordis.Guild.Traces

/-! # A ban and a membership of one user

A ban looks for the membership before it writes its row, and a join looks for a ban before it writes
its own, each in the snapshot of its statement; no lock orders the two looks. So a join that commits
between the look of a ban and its write leaves the user banned and a member.

This is the only way: if no ban looks for the membership while a join of the user is past its own look,
and no join looks for a ban while a ban of the user is past its, then no user is ever both.
-/

namespace Cordis.Guild

open GuildDatabase RowTable
open Service (Apart KeptApart)
open List

/-- The users whose joins have looked for a ban. -/
def joining (_ : GuildRequest) (calls : List Statement) : List (ℤ × ℤ) :=
  calls.filterMap fun
    | .query (.seenBan guildID userID) => some (guildID, userID)
    | _ => none

/-- The user whose ban has looked for the membership. -/
def banning : GuildRequest → List Statement → List (ℤ × ℤ)
  | .ban guildID _ userID, calls => if (guildID, userID) ∈ targetChecks calls then [(guildID, userID)] else []
  | _, _ => []

/-- No user is a member and banned. -/
def GuildTables.BansExcludeMembers (tables : GuildTables) : Prop :=
  ∀ guildID userID, tables.isMember guildID userID = true → ⟨guildID, userID⟩ ∉ tables.bans

section Locks

variable {limits : GuildLimits} {db next : GuildDatabase} {tx : ℕ}

/-- A removal that has found its row has locked it. -/
theorem removeGuildMember_locks {guildID userID : ℤ}
    (ran : db.exec limits tx (.write (.removeGuildMember guildID userID)) = some (next, true)) :
    ∃ value, next.members.Holds tx (guildID, userID) value := by
  obtain ⟨applied, removed⟩ := exec_write_eq_some ran
  simp only [Write.changes] at applied removed
  split_ifs at applied removed with active
  obtain ⟨middle, first, rest⟩ := apply_cons_eq_some.mp applied
  cases changed_of_applyChange first with
  | member writes _ =>
    refine apply_keeps (fun after => ∃ value, after.members.Holds tx (guildID, userID) value)
      ⟨_, writes.holds⟩ rest fun middle change after bump kept applied => ?_
    obtain ⟨guild, _, _, rfl⟩ := mem_bumpGuild bump
    cases changed_of_applyChange applied with
    | guild _ rest =>
      rw [rest]
      exact kept

end Locks

section Held

variable {life : ℤ → Option Bool} {state : GuildServiceState} {tx : ℕ}

/-- A transaction that has written a ban is that of the ban, or of its end. -/
theorem Traced.bansHeld (traced : Traced life state) {ban : Ban} {value : Option Ban}
    (held : state.store.bans.Holds tx ban value) :
    ∃ task, state.running tx = some task ∧ task.request.Joins = false ∧ (value ≠ none →
      (∃ actor, task.request = .ban ban.guildID actor ban.userID) ∧
        (ban.guildID, ban.userID) ∈ targetChecks task.calls ∧
        (NotFound task.log ban.guildID ban.userID ∨
          ⟨.write (.removeGuildMember ban.guildID ban.userID), true⟩ ∈ task.log)) := by
  obtain ⟨task, running, earlier, statement, reply, suffix, may, writes⟩ := traced.bans _ _ _ held
  have before : earlier <:+ task.log := (suffix_cons ..).trans suffix
  cases writes with
  | adds =>
    obtain ⟨⟨actor, request⟩, target, departed⟩ := may
    refine ⟨task, running, by rw [request]; rfl, fun _ => ⟨⟨actor, request⟩, mem_targetChecks_mono before target, ?_⟩⟩
    exact departed.imp (TargetRead.mono · before) fun removed => before.subset removed
  | drops =>
    obtain ⟨actor, request⟩ := may
    exact ⟨task, running, by rw [request]; rfl, fun written => (written rfl).elim⟩

theorem mem_banning {request : GuildRequest} {calls : List Statement} {guildID actor userID : ℤ}
    (ban : request = .ban guildID actor userID) (target : (guildID, userID) ∈ targetChecks calls) :
    (guildID, userID) ∈ banning request calls := by
  rw [ban, banning, if_pos target]
  exact mem_singleton_self _

theorem mem_joining {log : StatementLog} {request : GuildRequest} {guildID userID : ℤ} {seen : Bool}
    (looked : ⟨.query (.seenBan guildID userID), seen⟩ ∈ log) : (guildID, userID) ∈ joining request (issued log) :=
  mem_filterMap.mpr ⟨_, mem_map_of_mem looked, rfl⟩

end Held

section Invariant

/-- What keeps a ban and a membership apart. -/
structure BanInvariant (life : ℤ → Option Bool) (state : GuildServiceState) : Prop where
  traced : Traced life state
  apart : Apart joining banning state
  excluded : ∀ guildID userID, state.store.Active none guildID userID → state.store.bans.find none ⟨guildID, userID⟩ = none
  /-- Who has been seen without a ban by a join has none until the join ends. -/
  unseen : state.running.All fun _ task => ∀ guildID userID,
    ⟨.query (.seenBan guildID userID), false⟩ ∈ task.log → state.store.bans.find none ⟨guildID, userID⟩ = none
  /-- Who has not been found by a ban is not there until the ban ends. -/
  absent : state.running.All fun tx task => ∀ guildID actor userID, task.request = .ban guildID actor userID →
    NotFound task.log guildID userID → ¬ state.store.Active (some tx) guildID userID
  locked : state.running.All fun tx task => ∀ guildID userID,
    ⟨.write (.removeGuildMember guildID userID), true⟩ ∈ task.log →
      ∃ value, state.store.members.Holds tx (guildID, userID) value

variable {limits : GuildLimits} {life : ℤ → Option Bool} {state next : GuildServiceState} {tx : ℕ}
variable {guildID userID : ℤ}

section

variable (inv : BanInvariant life state)

include inv

/-- A transaction that has banned a user does not see the user as a member. -/
theorem BanInvariant.not_active {ban : Ban} (held : state.store.bans.Holds tx ban (some ban)) :
    ¬ state.store.Active (some tx) ban.guildID ban.userID := by
  obtain ⟨task, running, notJoins, written⟩ := inv.traced.bansHeld held
  obtain ⟨⟨actor, request⟩, _, departed⟩ := written (by simp)
  rcases departed with notFound | removed
  · exact inv.absent tx task running _ _ _ request notFound
  · rintro ⟨member, found, live⟩
    obtain ⟨value, lock⟩ := inv.locked tx task running _ _ removed
    rw [find_of_holds lock] at found
    subst found
    obtain ⟨other, same, joins, _⟩ := inv.traced.joins lock live
    rw [running] at same
    cases same
    rw [notJoins] at joins
    cases joins

/-- The commit of any transaction leaves no user banned and a member. -/
theorem BanInvariant.excluded_commit (active : state.store.Active (some tx) guildID userID) :
    state.store.bans.find (some tx) ⟨guildID, userID⟩ = none := by
  rcases state.store.bans.find_cases tx ⟨guildID, userID⟩ with ⟨value, held, same⟩ | ⟨_, same⟩
  · cases value with
    | none => exact same
    | some ban =>
      obtain rfl : ban = ⟨guildID, userID⟩ := key_of_find same
      exact (inv.not_active held active).elim
  · rw [same]
    rcases active_cases active with before | ⟨member, held, live⟩
    · exact inv.excluded guildID userID before
    · obtain ⟨task, running, _, looked⟩ := inv.traced.joins held live
      exact inv.unseen tx task running guildID userID looked

/-- No ban is committed while a join that has seen none is running. -/
theorem BanInvariant.unseen_commit {other : ℕ} {task : GuildTask} (ne : other ≠ tx)
    (running : state.running other = some task) (looked : ⟨.query (.seenBan guildID userID), false⟩ ∈ task.log) :
    state.store.bans.find (some tx) ⟨guildID, userID⟩ = none := by
  rcases state.store.bans.find_cases tx ⟨guildID, userID⟩ with ⟨value, held, same⟩ | ⟨_, same⟩
  · cases value with
    | none => exact same
    | some ban =>
      obtain rfl : ban = ⟨guildID, userID⟩ := key_of_find same
      obtain ⟨rival, rivals, _, written⟩ := inv.traced.bansHeld held
      obtain ⟨⟨actor, request⟩, target, _⟩ := written (by simp)
      exact (inv.apart other tx task rival (Ne.symm ne) running rivals _ (mem_joining looked)
        (mem_banning request target)).elim
  · rw [same]
    exact inv.unseen other task running guildID userID looked

/-- No membership is committed while a ban that has found none is running. -/
theorem BanInvariant.absent_commit {other : ℕ} {task : GuildTask} {actor : ℤ} (ne : other ≠ tx)
    (running : state.running other = some task) (request : task.request = .ban guildID actor userID)
    (notFound : NotFound task.log guildID userID) : ¬ (state.store.commit tx).Active (some other) guildID userID := by
  have before := inv.absent other task running guildID actor userID request notFound
  intro active
  rcases Shows.of_commit ne active with mine | ⟨theirs, committed⟩
  · exact before mine
  · rcases active_cases theirs with old | ⟨new, held, isLive⟩
    · exact before (committed old)
    · obtain ⟨rival, rivals, _, looked⟩ := inv.traced.joins held isLive
      exact inv.apart tx other rival task ne rivals running _ (mem_joining looked)
        (mem_banning request (TargetRead.mem_targetChecks notFound))

end

section Exec

variable {request : GuildRequest} {log : StatementLog} {statement : Statement} {rest : statement.Reply → Program Unit}
variable {store : GuildDatabase} {reply : statement.Reply}

variable (inv : BanInvariant life state)

include inv

/-- A ban does not make its user a member. -/
theorem BanInvariant.absent_exec {actor : ℤ}
    (current : state.running tx = some ⟨request, log, .call statement rest⟩)
    (ran : state.store.exec limits tx statement = some (store, reply)) (ban : request = .ban guildID actor userID)
    (before : ¬ state.store.Active (some tx) guildID userID) : ¬ store.Active (some tx) guildID userID := by
  rintro ⟨member, found, live⟩
  rcases (members_exec ran).find (some tx) (guildID, userID) with same | ⟨_, written⟩
  · exact before ⟨member, same.symm.trans found, live⟩
  · rw [found] at written
    cases written with
    | joins =>
      have joins : request.Joins = true := (inv.traced.disciplined _ _ current).1.1
      rw [ban] at joins
      cases joins
    | leaves => cases live

/-- A join that sees no ban is right, for it has not lifted one itself. -/
theorem BanInvariant.unseen_check {rest : Bool → Program Unit}
    (current : state.running tx = some ⟨request, log, .call (.query (.seenBan guildID userID)) rest⟩)
    (missing : ⟨guildID, userID⟩ ∉ (state.store.view (some tx)).bans) :
    state.store.bans.find none ⟨guildID, userID⟩ = none := by
  have joins : request.Joins = true := (inv.traced.disciplined _ _ current).1
  have free (value : Option Ban) : ¬ state.store.bans.Holds tx ⟨guildID, userID⟩ value := by
    intro held
    obtain ⟨task, running, notJoins, _⟩ := inv.traced.bansHeld held
    rw [current] at running
    cases running
    rw [joins] at notJoins
    cases notJoins
  rw [← find_of_not_holds free]
  cases found : state.store.bans.find (some tx) ⟨guildID, userID⟩ with
  | none => rfl
  | some ban =>
    obtain rfl : ban = ⟨guildID, userID⟩ := key_of_find found
    exact (missing (mem_view_bans.mpr found)).elim

theorem BanInvariant.exec (current : state.running tx = some ⟨request, log, .call statement rest⟩)
    (ran : state.store.exec limits tx statement = some (store, reply))
    (traced : Traced life { state with store, running := state.running.set tx ⟨request, ⟨statement, reply⟩ :: log, rest reply⟩ })
    (apart : Apart joining banning
      { state with store, running := state.running.set tx ⟨request, ⟨statement, reply⟩ :: log, rest reply⟩ }) :
    BanInvariant life
      { state with store, running := state.running.set tx ⟨request, ⟨statement, reply⟩ :: log, rest reply⟩ } where
  traced := traced
  apart := apart
  excluded := by
    intro guildID userID active
    rw [(bans_exec ran).find_of_ne (by simp)]
    exact inv.excluded guildID userID ((active_exec ran (by simp)).mp active)
  unseen := by
    have same (key : Ban) : store.bans.find none key = state.store.bans.find none key :=
      (bans_exec ran).find_of_ne (by simp) key
    simp only [same]
    refine inv.unseen.set fun guildID userID looked => ?_
    rcases mem_cons.mp looked with new | old
    · cases new
      obtain ⟨rfl, seen⟩ := exec_query_eq_some.mp ran
      exact inv.unseen_check current (of_decide_eq_false seen.symm)
    · exact inv.unseen _ _ current guildID userID old
  absent := by
    refine .set_of ?_ fun other task ne running guildID actor userID ban notFound => ?_
    · intro guildID actor userID ban notFound
      obtain ⟨earlier, suffix, checked⟩ := notFound
      rcases suffix_cons_iff.mp suffix with new | old
      · cases new
        obtain ⟨rfl, missing⟩ := exec_query_eq_some.mp ran
        -- the actor has been found in the guild before
        rcases (inv.traced.disciplined _ _ current).1 with first | ⟨_, _, found⟩
        · exact (checked first).elim
        · exact inv.traced.steady.of_getGuildForMember_none (inv.traced.live _ _ current _ _ _ found) missing.symm
      · exact inv.absent_exec current ran ban (inv.absent _ _ current _ _ _ ban ⟨earlier, old, checked⟩)
    · intro active
      exact inv.absent _ _ running _ _ _ ban notFound ((active_exec ran (by simpa using ne)).mp active)
  locked := by
    refine .set_of ?_ fun other task _ running guildID userID removed =>
      (members_exec ran).locked (inv.locked _ _ running guildID userID removed)
    intro guildID userID removed
    rcases mem_cons.mp removed with new | old
    · cases new
      exact removeGuildMember_locks ran
    · exact (members_exec ran).locked (inv.locked _ _ current guildID userID old)

end Exec

theorem BanInvariant.step {event : ServiceEvent GuildRequest} (inv : BanInvariant life state)
    (kept : KeptApart joining banning state event)
    (step : (guildService limits).machine.step state event = some next) : BanInvariant life next := by
  have traced := inv.traced.step step
  have apart : Apart joining banning next :=
    Service.apart_step (fun _ => rfl) (fun request => by cases request <;> rfl) inv.traced.listed inv.apart kept step
  cases Service.transition_step step with
  | begin fresh =>
    exact ⟨traced, apart, inv.excluded, inv.unseen.set (by simp), inv.absent.set (by simp [NotFound, TargetRead]), inv.locked.set (by simp)⟩
  | exec current ran => exact inv.exec current ran traced apart
  | @commit id request log value current =>
    refine ⟨traced, apart, fun guildID userID active => inv.excluded_commit active, ?_, ?_, ?_⟩
    · refine .drop_of fun other task ne running guildID userID looked => ?_
      exact inv.unseen_commit ne running looked
    · refine .drop_of fun other task ne running guildID actor userID ban notFound => ?_
      exact inv.absent_commit ne running ban notFound
    · refine .drop_of fun other task ne running guildID userID removed => ?_
      obtain ⟨value, held⟩ := inv.locked _ _ running guildID userID removed
      exact ⟨value, holds_commit.mpr ⟨held, ne⟩⟩
  | @rollback id task current =>
    refine ⟨traced, apart, inv.excluded, inv.unseen.drop id, ?_, ?_⟩
    · refine .drop_of fun other task ne running guildID actor userID ban notFound => ?_
      rintro ⟨member, found, live⟩
      refine inv.absent _ _ running _ _ _ ban notFound ⟨member, ?_, live⟩
      exact (state.store.members.find_rollback ne _).symm.trans found
    · refine .drop_of fun other task ne running guildID userID removed => ?_
      obtain ⟨value, held⟩ := inv.locked _ _ running guildID userID removed
      exact ⟨value, holds_rollback.mpr ⟨held, ne⟩⟩

theorem banInvariant_initial {tables : GuildTables} (exclusive : (tables.initial.store.view none).BansExcludeMembers) :
    BanInvariant tables.life tables.initial where
  traced := traced_initial tables
  apart _ _ _ _ _ present := by cases present
  excluded guildID userID active := by
    cases found : tables.initial.store.bans.find none ⟨guildID, userID⟩ with
    | none => rfl
    | some ban =>
      obtain rfl : ban = ⟨guildID, userID⟩ := key_of_find found
      exact (exclusive guildID userID (isMember_view.mpr active) (mem_view_bans.mpr found)).elim
  unseen := Pool.all_empty _
  absent := Pool.all_empty _
  locked := Pool.all_empty _

end Invariant

/-- In every run in which the looks of a join and of a ban of one user are kept apart, no user is ever
a member and banned. -/
theorem ban_excludes_membership {limits : GuildLimits} {tables : GuildTables} {final : GuildServiceState}
    {events : List (ServiceEvent GuildRequest)} (exclusive : (tables.initial.store.view none).BansExcludeMembers)
    (run : (guildService limits).machine.run tables.initial events = some final)
    (kept : (guildService limits).machine.Along (KeptApart joining banning) tables.initial events) :
    (final.store.view none).BansExcludeMembers := by
  have inv : BanInvariant tables.life final :=
    Machine.invariant_along (fun _ _ _ inv kept step => inv.step kept step) run kept (banInvariant_initial exclusive)
  intro guildID userID isMember banned
  have none := inv.excluded guildID userID (GuildDatabase.isMember_view.mp isMember)
  rw [GuildDatabase.mem_view_bans.mp banned] at none
  cases none

/-- A guild with its owner, and an invite to it. -/
def invitingGuild : GuildTables where
  guilds := [{ id := 10, ownerID := 1 }]
  members := [⟨10, 1, false⟩]
  roles := [{ id := 10, guildID := 10, permissions := permissionViewChannel, position := 0, isDefault := true }]
  invites := [{ code := "join-us", guildID := 10 }]

/-- User 2 joins, and is banned afterwards. -/
def banAfterJoin : List (ServiceEvent GuildRequest) :=
  .begin 0 (.joinByInvite "join-us" 2 5) :: List.replicate 9 (.exec 0) ++
    .commit 0 :: .begin 1 (.ban 10 1 2) :: List.replicate 9 (.exec 1) ++ [.commit 1]

theorem banAfterJoin_excludes : ∃ final, (guildService {}).machine.run invitingGuild.initial banAfterJoin = some final ∧
    (final.store.view none).bans = [⟨10, 2⟩] ∧ (final.store.view none).BansExcludeMembers := by
  refine Machine.exists_run (by decide) fun run => ⟨by decide, ?_⟩
  have exclusive : (invitingGuild.initial.store.view none).BansExcludeMembers := fun _ _ _ => List.not_mem_nil
  exact ban_excludes_membership exclusive run (by decide)

/-- The ban of user 2 finds no membership; the user joins; then the ban is written. -/
def joinDuringBan : List (ServiceEvent GuildRequest) :=
  .begin 0 (.ban 10 1 2) :: List.replicate 2 (.exec 0) ++
    .begin 1 (.joinByInvite "join-us" 2 5) :: List.replicate 9 (.exec 1) ++ [.commit 1, .exec 0, .commit 0]

theorem joinDuringBan_bans_a_member : ∃ final,
    (guildService {}).machine.run invitingGuild.initial joinDuringBan = some final ∧
      (final.store.view none).isMember 10 2 = true ∧ ⟨10, 2⟩ ∈ (final.store.view none).bans ∧
      (invitingGuild.initial.store.view none).BansExcludeMembers ∧ ¬ (final.store.view none).BansExcludeMembers := by
  refine Machine.exists_run (by decide) fun _ => ⟨by decide, by decide,
    fun _ _ _ => List.not_mem_nil, fun excludes => excludes 10 2 ?_ ?_⟩
  all_goals decide

end Cordis.Guild
