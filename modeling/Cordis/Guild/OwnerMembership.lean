import Cordis.Guild.Traces

/-! # The owner of a guild is a member of it

A transfer looks for the membership of the new owner, and a departure looks at the owner, before they
write: the one the row of the guild, the other that of the member. The departure locks the guild's row as
well, through a trigger, but only when it writes. So a departure that commits between the look of a
transfer to the same user and its write leaves the guild to someone who is not a member.

If no transfer looks while a departure of the new owner is past its look, and no departure looks while a
transfer to its user is past its, then the owner of every guild that is not deleted is a member.
-/

namespace Cordis.Guild

open RowTable GuildDatabase Pool
open Service (Apart KeptApart)
open List

/-- The user who departs, once the request has looked at the owner. -/
def leaving (request : GuildRequest) (calls : List Statement) : List (ℤ × ℤ) :=
  (request.departure.toList.filter fun departure =>
    (memberChecks calls).contains (departure.guildID, departure.checkedID)).map
      fun departure => (departure.guildID, departure.userID)

/-- The new owner, once the request has looked for the membership. -/
def receiving : GuildRequest → List Statement → List (ℤ × ℤ)
  | .transferOwnership guildID _ newOwnerID, calls =>
    if Statement.query (.getGuildMember guildID newOwnerID) ∈ calls then [(guildID, newOwnerID)] else []
  | _, _ => []

/-- The owner of a guild that is not deleted is a member. -/
def GuildTables.OwnersAreMembers (tables : GuildTables) : Prop :=
  ∀ guild ∈ tables.guilds, guild.deleted = false → tables.isMember guild.id guild.ownerID = true

section Invariant

/-- The transaction transfers the guild to a user whom it has found to be a member. -/
def Transfers (task : GuildTask) (guildID userID : ℤ) : Prop :=
  (∃ owner, task.request = .transferOwnership guildID owner userID) ∧
    ∃ member, ⟨.query (.getGuildMember guildID userID), some member⟩ ∈ task.log

/-- The transaction is to end the membership and has seen another owner. -/
def SawOtherOwner (request : GuildRequest) (log : StatementLog) (guildID userID : ℤ) : Prop :=
  ∃ checkedID guild, request.departure = some ⟨guildID, userID, checkedID⟩ ∧
    ⟨.query (.getGuildForMember guildID checkedID), some guild⟩ ∈ log ∧ guild.ownerID ≠ userID

/-- What keeps the owner a member. -/
structure OwnerInvariant (life : ℤ → Option Bool) (state : GuildServiceState) : Prop where
  traced : Traced life state
  apart : Apart leaving receiving state
  owned : ∀ guildID guild, state.store.guilds.find none guildID = some guild → guild.deleted = false →
    state.store.Active none guildID guild.ownerID
  /-- A changed row has the committed owner, or one to whom its transaction transfers the guild. -/
  changed : ∀ tx guildID value, state.store.guilds.Holds tx guildID value →
    ∃ task, state.running tx = some task ∧ ∃ guild, value = some guild ∧
      ((∃ old, state.store.guilds.find none guildID = some old ∧ old.ownerID = guild.ownerID) ∨
        Transfers task guildID guild.ownerID)
  /-- Who has been found by a transfer is a member until it ends. -/
  found : state.running.All fun _ task => ∀ guildID userID, Transfers task guildID userID →
    state.store.Active none guildID userID
  /-- Who has been seen not to be the owner by a departure is not the owner until it ends. -/
  notOwner : state.running.All fun _ task => ∀ guildID userID, SawOtherOwner task.request task.log guildID userID →
    ∀ guild, state.store.guilds.find none guildID = some guild → guild.ownerID ≠ userID

variable {limits : GuildLimits} {life : ℤ → Option Bool} {state next : GuildServiceState} {tx other : ℕ}
variable {guildID userID : ℤ} {task rival : GuildTask}

theorem mem_leaving {request : GuildRequest} {log : StatementLog} (saw : SawOtherOwner request log guildID userID) :
    (guildID, userID) ∈ leaving request (issued log) := by
  obtain ⟨checkedID, guild, departure, loaded, _⟩ := saw
  have checked : (guildID, checkedID) ∈ memberChecks (issued log) :=
    mem_filterMap.mpr ⟨_, mem_map_of_mem loaded, rfl⟩
  refine mem_map.mpr ⟨⟨guildID, userID, checkedID⟩, mem_filter.mpr ⟨?_, contains_iff_mem.mpr checked⟩, rfl⟩
  exact Option.mem_toList.mpr departure

theorem mem_receiving (transfers : Transfers task guildID userID) :
    (guildID, userID) ∈ receiving task.request task.calls := by
  obtain ⟨⟨owner, request⟩, member, loaded⟩ := transfers
  have looked : Statement.query (.getGuildMember guildID userID) ∈ task.calls := mem_map_of_mem loaded
  simp [request, receiving, looked]

theorem SawOtherOwner.not_transfers {another : ℤ} (saw : SawOtherOwner task.request task.log guildID userID)
    (transfers : Transfers task guildID another) : False := by
  obtain ⟨checkedID, guild, departure, _⟩ := saw
  obtain ⟨⟨owner, request⟩, _⟩ := transfers
  rw [request] at departure
  cases departure

namespace OwnerInvariant

section

variable (inv : OwnerInvariant life state)

include inv

theorem active_of_not_saw (active : state.store.Active none guildID userID)
    (stays : ∀ task, state.running tx = some task → ¬ SawOtherOwner task.request task.log guildID userID) :
    state.store.Active (some tx) guildID userID := by
  refine inv.traced.active_of_stays active fun task running earlier suffix may => ?_
  obtain ⟨⟨checkedID, guild, departure, loaded, owner⟩, _⟩ := may
  exact stays task running ⟨checkedID, guild, departure, suffix.subset loaded, owner⟩

/-- The owner that a transaction sees is the committed one, or one to whom it transfers the guild. -/
theorem owner_seen {guild : GuildRow} (found : state.store.guilds.find (some tx) guildID = some guild) :
    (∃ old, state.store.guilds.find none guildID = some old ∧ old.ownerID = guild.ownerID) ∨
      ∃ task, state.running tx = some task ∧ Transfers task guildID guild.ownerID := by
  rcases state.store.guilds.find_cases tx guildID with ⟨value, held, same⟩ | ⟨_, same⟩
  · obtain ⟨task, running, row, rfl, owner⟩ := inv.changed _ _ _ held
    cases same.symm.trans found
    exact owner.imp id fun transfers => ⟨task, running, transfers⟩
  · exact .inl ⟨guild, same.symm.trans found, rfl⟩

theorem owned_commit {guild : GuildRow} (found : state.store.guilds.find (some tx) guildID = some guild)
    (live : guild.deleted = false) : state.store.Active (some tx) guildID guild.ownerID := by
  rcases inv.owner_seen found with ⟨old, committed, owner⟩ | ⟨task, running, transfers⟩
  · have oldLive : old.deleted = false := by
      have before := inv.traced.steady none guildID
      have mine := inv.traced.steady (some tx) guildID
      rw [committed] at before
      rw [found, Option.map_some, live] at mine
      exact Option.some.inj (before.trans mine.symm)
    have active := inv.owned guildID old committed oldLive
    rw [owner] at active
    exact inv.active_of_not_saw active fun task running saw => inv.notOwner tx task running _ _ saw old committed owner
  · refine inv.active_of_not_saw (inv.found tx task running _ _ transfers) fun same present saw => ?_
    rw [running] at present
    cases present
    exact saw.not_transfers transfers

theorem found_commit (ne : other ≠ tx) (running : state.running other = some task)
    (transfers : Transfers task guildID userID) : state.store.Active (some tx) guildID userID := by
  refine inv.active_of_not_saw (inv.found other task running _ _ transfers) fun rival rivals saw => ?_
  exact inv.apart tx other rival task ne rivals running _ (mem_leaving saw) (mem_receiving transfers)

end

section Exec

variable {request : GuildRequest} {log : StatementLog} {statement : Statement} {rest : statement.Reply → Program Unit}
variable {store : GuildDatabase} {reply : statement.Reply}

variable (inv : OwnerInvariant life state)

include inv

/-- A transfer that finds the new owner is right, for it has not made the user a member itself. -/
theorem found_check {owner : ℤ} {member : Member} {rest : Option Member → Program Unit}
    (current : state.running tx = some ⟨request, log, .call (.query (.getGuildMember guildID userID)) rest⟩)
    (transfer : request = .transferOwnership guildID owner userID)
    (loaded : (state.store.view (some tx)).getGuildMember guildID userID = some member) :
    state.store.Active none guildID userID := by
  rcases active_cases (active_of_getGuildMember loaded) with active | ⟨row, held, live⟩
  · exact active
  · obtain ⟨task, running, joins, _⟩ := inv.traced.joins held live
    rw [current] at running
    cases running
    rw [transfer] at joins
    cases joins

/-- The owner that a departure sees is the committed one. -/
theorem notOwner_check {checkedID : ℤ} {guild : GuildRow} {rest : Option GuildRow → Program Unit}
    (current : state.running tx = some ⟨request, log, .call (.query (.getGuildForMember guildID checkedID)) rest⟩)
    (departure : request.departure = some ⟨guildID, userID, checkedID⟩)
    (loaded : (state.store.view (some tx)).getGuildForMember guildID checkedID = some guild)
    (notOwner : guild.ownerID ≠ userID) {row : GuildRow}
    (committed : state.store.guilds.find none guildID = some row) : row.ownerID ≠ userID := by
  rcases inv.owner_seen (of_getGuildForMember loaded).1 with ⟨old, found, owner⟩ | ⟨task, running, transfers⟩
  · cases committed.symm.trans found
    rwa [owner]
  · rw [current] at running
    cases running
    obtain ⟨⟨owner, transfer⟩, _⟩ := transfers
    have transfer : request = .transferOwnership guildID owner guild.ownerID := transfer
    rw [transfer] at departure
    cases departure

theorem changed_exec (current : state.running tx = some ⟨request, log, .call statement rest⟩)
    (ran : state.store.exec limits tx statement = some (store, reply)) {owner : ℕ} {value : Option GuildRow}
    (held : store.guilds.Holds owner guildID value) :
    ∃ task, state.running.set tx ⟨request, ⟨statement, reply⟩ :: log, rest reply⟩ owner = some task ∧
      ∃ guild, value = some guild ∧
        ((∃ old, state.store.guilds.find none guildID = some old ∧ old.ownerID = guild.ownerID) ∨
          Transfers task guildID guild.ownerID) := by
  have grown {userID : ℤ} {before : GuildTask} (running : state.running tx = some before)
      (transfers : Transfers before guildID userID) :
      Transfers ⟨request, ⟨statement, reply⟩ :: log, rest reply⟩ guildID userID := by
    rw [current] at running
    cases running
    obtain ⟨transfer, member, loaded⟩ := transfers
    exact ⟨transfer, member, mem_cons_of_mem _ loaded⟩
  rcases (guilds_exec ran).holds held with before | ⟨rfl, written⟩
  · refine exists_set current (fun _ => ?_) (inv.changed _ _ _ before)
    rintro ⟨guild, rfl, seen⟩
    exact ⟨guild, rfl, seen.imp id (grown current)⟩
  · refine ⟨_, set_self .., ?_⟩
    cases written with
    | bumps row =>
      refine ⟨_, rfl, (inv.owner_seen (mem_rows.mp row)).imp id ?_⟩
      rintro ⟨task, running, transfers⟩
      exact grown running transfers
    | transfers loaded =>
      obtain ⟨transfer, member, found⟩ := (inv.traced.disciplined _ _ current).1
      have key := find?_some loaded
      simp only [decide_eq_true_eq] at key
      refine ⟨_, rfl, .inr ?_⟩
      rw [key.1]
      exact ⟨⟨_, transfer⟩, member, mem_cons_of_mem _ found⟩

theorem exec {after : GuildServiceState} (current : state.running tx = some ⟨request, log, .call statement rest⟩)
    (ran : state.store.exec limits tx statement = some (store, reply))
    (isAfter : after = { state with store, running := state.running.set tx ⟨request, ⟨statement, reply⟩ :: log, rest reply⟩ })
    (traced : Traced life after) (apart : Apart leaving receiving after) : OwnerInvariant life after := by
  subst isAfter
  have guilds (guildID : ℤ) : store.guilds.find none guildID = state.store.guilds.find none guildID :=
    (guilds_exec ran).find_of_ne (by simp) guildID
  have active (guildID userID : ℤ) : store.Active none guildID userID ↔ state.store.Active none guildID userID :=
    active_exec ran (by simp)
  refine ⟨traced, apart, ?_, ?_, ?_, ?_⟩
  · simp only [guilds, active]
    exact inv.owned
  · simp only [guilds]
    exact fun owner guildID value held => inv.changed_exec current ran held
  · simp only [active]
    refine inv.found.set ?_
    rintro guildID userID ⟨⟨owner, transfer⟩, member, loaded⟩
    rcases mem_cons.mp loaded with new | old
    · cases new
      obtain ⟨rfl, loaded⟩ := exec_query_eq_some.mp ran
      exact inv.found_check current transfer loaded.symm
    · exact inv.found _ _ current _ _ ⟨⟨owner, transfer⟩, member, old⟩
  · simp only [guilds]
    refine inv.notOwner.set ?_
    rintro guildID userID ⟨checkedID, guild, departure, loaded, notOwner⟩ row committed
    rcases mem_cons.mp loaded with new | old
    · cases new
      obtain ⟨rfl, loaded⟩ := exec_query_eq_some.mp ran
      exact inv.notOwner_check current departure loaded.symm notOwner committed
    · exact inv.notOwner _ _ current _ _ ⟨checkedID, guild, departure, old, notOwner⟩ row committed

end Exec

theorem step {event : ServiceEvent GuildRequest} (inv : OwnerInvariant life state)
    (kept : KeptApart leaving receiving state event)
    (step : (guildService limits).machine.step state event = some next) : OwnerInvariant life next := by
  have traced := inv.traced.step step
  have apart : Apart leaving receiving next :=
    Service.apart_step (fun request => by simp [leaving, memberChecks]) (fun request => by cases request <;> rfl)
      inv.traced.listed inv.apart kept step
  cases Service.transition_step step with
  | @begin id request fresh =>
    refine ⟨traced, apart, inv.owned, fun tx guildID value held => ?_, inv.found.set (by simp [Transfers]),
      inv.notOwner.set (by simp [SawOtherOwner])⟩
    exact inv.traced.listed.exists_begin fresh (inv.changed tx guildID value held)
  | exec current ran => exact inv.exec current ran rfl traced apart
  | @commit id request log value current =>
    refine ⟨traced, apart, fun guildID guild found live => inv.owned_commit found live, ?_, ?_, ?_⟩
    · intro tx guildID value held
      obtain ⟨before, ne⟩ := holds_commit.mp held
      obtain ⟨task, running, guild, rfl, seen⟩ := inv.changed tx guildID value before
      have same : state.store.guilds.find (some id) guildID = state.store.guilds.find none guildID :=
        find_of_not_holds fun _ also => ne (also.unique before).1
      refine ⟨task, (drop_of_ne _ ne).trans running, guild, rfl, seen.imp ?_ fun transfers => transfers⟩
      rintro ⟨old, committed, owner⟩
      exact ⟨old, same.trans committed, owner⟩
    · exact .drop_of fun other task ne running guildID userID transfers => inv.found_commit ne running transfers
    · refine .drop_of fun other task ne running guildID userID saw guild found isOwner => ?_
      subst isOwner
      rcases inv.owner_seen found with ⟨old, committed, owner⟩ | ⟨rival, rivals, transfers⟩
      · exact inv.notOwner other task running _ _ saw old committed owner
      · exact inv.apart other id task rival (Ne.symm ne) running rivals _ (mem_leaving saw) (mem_receiving transfers)
  | @rollback id task current =>
    refine ⟨traced, apart, inv.owned, ?_, inv.found.drop id, inv.notOwner.drop id⟩
    intro tx guildID value held
    obtain ⟨before, ne⟩ := holds_rollback.mp held
    obtain ⟨task, running, seen⟩ := inv.changed tx guildID value before
    exact ⟨task, (drop_of_ne _ ne).trans running, seen⟩

end OwnerInvariant

theorem ownerInvariant_initial {tables : GuildTables} (owned : (tables.initial.store.view none).OwnersAreMembers) :
    OwnerInvariant tables.life tables.initial where
  traced := traced_initial tables
  apart _ _ _ _ _ present := by cases present
  owned guildID guild found live := by
    have key : guild.id = guildID := key_of_find found
    subst key
    exact isMember_view.mp (owned guild (mem_rows.mpr found) live)
  changed _ _ _ held := (not_holds_ofRows _ held).elim
  found := all_empty _
  notOwner := all_empty _

end Invariant

/-- In every run in which the looks of a transfer and of a departure of the new owner are kept apart, the
owner of a guild that is not deleted is a member. -/
theorem owner_stays_member {limits : GuildLimits} {tables : GuildTables} {final : GuildServiceState}
    {events : List (ServiceEvent GuildRequest)} (owned : (tables.initial.store.view none).OwnersAreMembers)
    (run : (guildService limits).machine.run tables.initial events = some final)
    (kept : (guildService limits).machine.Along (KeptApart leaving receiving) tables.initial events) :
    (final.store.view none).OwnersAreMembers := by
  have inv : OwnerInvariant tables.life final :=
    Machine.invariant_along (fun _ _ _ inv kept step => inv.step kept step) run kept (ownerInvariant_initial owned)
  intro guild row live
  exact GuildDatabase.isMember_view.mpr (inv.owned guild.id guild (RowTable.mem_rows.mp row) live)

/-- A guild with its owner and one more member. -/
def sharedGuild : GuildTables where
  guilds := [{ id := 10, ownerID := 1 }]
  members := [⟨10, 1, false⟩, ⟨10, 2, false⟩]
  roles := [{ id := 10, guildID := 10, permissions := permissionViewChannel, position := 0, isDefault := true }]

theorem sharedGuild_owned : (sharedGuild.initial.store.view none).OwnersAreMembers := by
  unfold GuildTables.OwnersAreMembers
  decide

/-- The guild is transferred to user 2, and user 1 leaves. -/
def leaveAfterTransfer : List (ServiceEvent GuildRequest) :=
  .begin 0 (.transferOwnership 10 1 2) :: List.replicate 5 (.exec 0) ++
    .commit 0 :: .begin 1 (.leave 10 1) :: List.replicate 6 (.exec 1) ++ [.commit 1]

theorem leaveAfterTransfer_keeps_owner : ∃ final,
    (guildService {}).machine.run sharedGuild.initial leaveAfterTransfer = some final ∧
      (final.store.view none).isMember 10 1 = false ∧ (final.store.view none).OwnersAreMembers := by
  refine Machine.exists_run rfl fun run => ⟨by decide, ?_⟩
  exact owner_stays_member sharedGuild_owned run (by decide)

/-- The transfer to user 2 finds the membership; user 2 leaves; then the owner is written. -/
def leaveDuringTransfer : List (ServiceEvent GuildRequest) :=
  .begin 0 (.transferOwnership 10 1 2) :: List.replicate 2 (.exec 0) ++
    .begin 1 (.leave 10 2) :: List.replicate 6 (.exec 1) ++ [.commit 1, .exec 0, .exec 0, .exec 0, .commit 0]

theorem leaveDuringTransfer_loses_owner : ∃ final,
    (guildService {}).machine.run sharedGuild.initial leaveDuringTransfer = some final ∧
      (∃ guild ∈ (final.store.view none).guilds, guild.id = 10 ∧ guild.deleted = false ∧ guild.ownerID = 2) ∧
      (final.store.view none).isMember 10 2 = false ∧ (sharedGuild.initial.store.view none).OwnersAreMembers ∧
      ¬ (final.store.view none).OwnersAreMembers := by
  refine ⟨_, rfl, by decide, by decide, sharedGuild_owned, fun owned => ?_⟩
  exact absurd (owned { id := 10, ownerID := 2, accessRevision := 3 } (by decide) rfl) (by decide)

end Cordis.Guild
