import Cordis.Guild.Operations
import Cordis.Guild.StatementEffects
import Cordis.Guild.VisibilityAgreement
import Cordis.Session.AccessEvents

/-! # Every change of access is announced

Each operation has the effects of its statements, and enqueues events whose handling on a session node
covers everyone whose view the statements can change: the event settles the user's visibility entry, at
a revision that is read after the last statement.
-/

namespace Cordis.Guild

open GuildTables Go List

variable (event : AccessEvent) (userID revision : ℤ)

/-- Handling the event settles the user's entry for the guild, whatever revision it is stamped with. -/
def AccessEvent.Reaches : Prop :=
  ∃ stage ∈ Session.guildStages (Session.EventType.ofName event.type) event.routing,
    stage.Removes userID ∨ stage.Invalidates userID ∧ event.type ≠ eventTypeGuildDeleted

/-- Handling the event removes the user's entry for the guild or brings it to the revision. -/
def AccessEvent.Covers : Prop :=
  ∃ stage ∈ Session.guildStages (Session.EventType.ofName event.type) event.routing,
    stage.Settles userID revision event.routing.accessRevision

/-- Whoever sees other channels afterwards is covered by an event, and the revision has gone up. -/
def Outcome.Announces (outcome : Outcome) (tables : GuildTables) : Prop :=
  ∀ guildID userID, ¬ SameView tables outcome.tables guildID userID →
    tables.revision guildID < outcome.tables.revision guildID ∧
      ∃ event ∈ outcome.events, event.guildID = guildID ∧ event.Covers userID (outcome.tables.revision guildID)

/-- Whenever a session node handles the event in `DispatchGuildEvent`, whatever else it does meanwhile, and
has a session of the user to list each time the call lists sessions, the call is not over before the user's
entry for the guild was removed or was at the revision. -/
def AccessEvent.InvalidatesOrRemoves : Prop :=
  ∀ (cfg : Session.NodeConfig) (start final : Session.DispatchNode) (id committed : ℕ) (now : ℤ)
    (envelope : Session.EventEnvelope) (steps : List Session.DispatchEvent),
    envelope.type = event.type → envelope.routing = some event.routing →
    start.IsNew (.guild event.guildID) envelope now →
    (Session.dispatchMachine cfg).run start (.dispatch id (.guild event.guildID) envelope committed now :: steps) =
      some final →
    (Session.dispatchMachine cfg).Along (Session.DispatchNode.ListsUser id userID) start
      (.dispatch id (.guild event.guildID) envelope committed now :: steps) →
    final.calls id = none →
    ∃ before rest middle, steps = before ++ rest ∧
      (Session.dispatchMachine cfg).run start (.dispatch id (.guild event.guildID) envelope committed now :: before) =
        some middle ∧
      Session.ReflectsRevision middle.users userID event.guildID revision

section Stamping

variable {tables : GuildTables} {events stamped : List AccessEvent} {event : AccessEvent}

theorem mem_stampEvents (done : stampEvents tables events = .ok stamped) (member : event ∈ events) :
    ∃ revision : ℤ, { event with routing := { event.routing with accessRevision := revision } } ∈ stamped ∧
      (event.type ≠ eventTypeGuildDeleted →
        ∃ guild, tables.getGuild event.guildID = some guild ∧ revision = guild.accessRevision) := by
  induction events generalizing stamped with
  | nil => cases member
  | cons first events ih =>
    simp only [stampEvents, bind_eq_ok] at done
    obtain ⟨revision, read, rest, stampedRest, made⟩ := done
    cases made
    rcases mem_cons.mp member with rfl | later
    · refine ⟨revision, mem_cons_self, fun other => ?_⟩
      rw [stampRevision, if_neg other] at read
      obtain ⟨guild, loaded, rfl⟩ := map_eq_ok.mp read
      exact ⟨guild, found_eq_ok.mp loaded, rfl⟩
    · obtain ⟨value, listed, read⟩ := ih stampedRest later
      exact ⟨value, mem_cons_of_mem _ listed, read⟩

/-- With unique ids there is one row to read the revision from. -/
theorem revision_of_getGuild {guildID : ℤ} {guild : GuildRow} (keys : (tables.guilds.map GuildRow.id).Nodup)
    (loaded : tables.getGuild guildID = some guild) : tables.revision guildID = guild.accessRevision := by
  have id := id_of_getGuild loaded
  have stored := mem_of_find?_eq_some loaded
  have look : (tables.guilds.find? fun row => row.id = guildID) = some guild := by
    refine find?_of_only stored (by simp [id]) fun row listed same => ?_
    exact inj_on_of_nodup_map keys listed stored ((of_decide_eq_true same).trans id.symm)
  rw [GuildTables.revision, look]
  rfl

variable {changed : GuildTables} {outcome : Outcome}

/-- An operation announces its changes when its events reach everyone its statements are about. -/
theorem announces_of_enqueued {audience : ℤ → ℤ → Prop}
    (keys : (tables.guilds.map GuildRow.id).Nodup) (unique : tables.UniqueTargets)
    (changes : Changes tables changed audience) (enqueued : enqueueEvents changed events = .ok outcome)
    (reached : ∀ guildID userID, audience guildID userID →
      ∃ event ∈ events, event.guildID = guildID ∧ event.Reaches userID) : outcome.Announces tables := by
  obtain ⟨stamped, done, rfl⟩ := map_eq_ok.mp enqueued
  intro guildID userID moved
  obtain ⟨meant, raised⟩ := changes.covered unique guildID userID moved
  refine ⟨raised, ?_⟩
  obtain ⟨event, member, rfl, stage, has, settles⟩ := reached guildID userID meant
  obtain ⟨revision, listed, read⟩ := mem_stampEvents done member
  refine ⟨_, listed, rfl, stage, has, ?_⟩
  rcases settles with removes | ⟨invalidates, other⟩
  · exact .inl removes
  · obtain ⟨guild, loaded, rfl⟩ := read other
    rw [← changes.ids] at keys
    have now := revision_of_getGuild keys loaded
    dsimp only at raised ⊢
    refine .inr ⟨invalidates, ?_, ?_⟩
    · omega
    · rw [now]

/-- An operation that changes nobody's view has nothing to announce. -/
theorem announces_of_unseen (unique : tables.UniqueTargets)
    (changes : Changes tables changed fun _ _ => False) (same : outcome.tables = changed) : outcome.Announces tables := by
  intro guildID userID moved
  rw [same] at moved
  exact (changes.covered unique guildID userID moved).1.elim

end Stamping

section Events

variable {guildID userID : ℤ} {routing : Session.EventRouting}

theorem reaches_of_stage {type : String} (other : type ≠ eventTypeGuildDeleted)
    {stage : Session.Stage} (stages : stage ∈ Session.guildStages (Session.EventType.ofName type) routing)
    (invalidates : stage.Invalidates userID) : AccessEvent.Reaches { type, guildID, routing } userID :=
  ⟨stage, stages, .inr ⟨invalidates, other⟩⟩

/-- The join of a user that exists attaches the user. -/
theorem reaches_memberJoined (positive : 0 < userID) : (newGuildMemberJoinedEvent guildID userID).Reaches userID := by
  have stages : Session.attachStages userID = [.attachGuildUser userID] := if_neg (not_le.mpr positive)
  have attaches : .attachGuildUser userID ∈ Session.attachStages userID ++ [.sessions .all] := by
    rw [stages]
    exact mem_cons_self
  exact reaches_of_stage (by decide) attaches rfl

/-- An overwrite event is for whom the overwrite is meant. -/
theorem invalidates_accessTarget {type : Session.EventType} (overwrite : type = .overwriteUpdated ∨ type = .overwriteDeleted)
    {appliesTo : AppliesTo} (code : routing.appliesTo = appliesToCode appliesTo)
    (meant : appliesTo = .member → userID = routing.appliesToID) :
    (Session.Stage.invalidateGuild (Session.accessTarget type routing)).Invalidates userID := by
  unfold Session.accessTarget
  cases appliesTo with
  | role =>
    rw [if_neg]
    · exact .inl le_rfl
    · rintro ⟨_, member⟩
      rw [code] at member
      cases member
  | member =>
    rw [if_pos ⟨overwrite, code⟩]
    exact .inr (meant rfl).symm

end Events

section Operations

variable {limits : GuildLimits} {tables : GuildTables} {outcome : Outcome} {guildID actorUserID userID roleID channelID : ℤ}
  (wf : tables.WellFormed limits)

include wf

/-- An operation with one event. -/
theorem announces_single {changed : GuildTables} {event : AccessEvent} {audience : ℤ → ℤ → Prop}
    (changes : Changes tables changed audience) (enqueued : enqueueEvents changed [event] = .ok outcome)
    (reached : ∀ guildID userID, audience guildID userID → event.guildID = guildID ∧ event.Reaches userID) :
    outcome.Announces tables :=
  announces_of_enqueued wf.guilds wf.overwrites changes enqueued fun guildID userID meant =>
    ⟨event, mem_singleton_self _, reached guildID userID meant⟩

theorem announces_createGuildRole {permissions : Permissions}
    (ran : createGuildRole limits tables guildID actorUserID roleID permissions = .ok outcome) :
    outcome.Announces tables := by
  simp only [createGuildRole, bind_eq_ok] at ran
  obtain ⟨_, _, _, _, _, _, _, _, _, _, _, _, _, _, changed, created, enqueued⟩ := ran
  exact announces_single wf (Changes.createGuildRole created) enqueued fun _ _ here =>
    ⟨here.symm, reaches_of_stage (by decide) mem_cons_self (.inl le_rfl)⟩

theorem announces_updateGuildRole {rename : Bool} {permissions : Option Permissions}
    (ran : updateGuildRole tables guildID actorUserID roleID rename permissions = .ok outcome) :
    outcome.Announces tables := by
  simp only [updateGuildRole, bind_eq_ok] at ran
  obtain ⟨_, _, _, _, _, _, _, _, _, _, _, _, _, _, _, _, _, _, changed, updated, enqueued⟩ := ran
  exact announces_single wf (Changes.updateGuildRole wf.roles updated) enqueued fun _ _ here =>
    ⟨here.symm, reaches_of_stage (by decide) mem_cons_self (.inl le_rfl)⟩

theorem announces_deleteGuildRole (ran : deleteGuildRole tables guildID actorUserID roleID = .ok outcome) :
    outcome.Announces tables := by
  simp only [deleteGuildRole, bind_eq_ok] at ran
  obtain ⟨_, _, _, _, _, _, _, _, _, _, _, _, changed, deleted, enqueued⟩ := ran
  have overwrites : Changes (tables.deleteGuildRoleAssignments guildID roleID) _ (Everyone guildID) :=
    (Changes.deleteGuildChannelPermissionOverwritesForAppliesTo _ guildID .role roleID).mono fun _ _ meant => meant.1
  have changes := (Changes.deleteGuildRoleAssignments tables guildID roleID).trans
    (overwrites.trans (Changes.deleteGuildRole deleted))
  exact announces_single wf changes enqueued fun _ _ here =>
    ⟨here.symm, reaches_of_stage (by decide) mem_cons_self (.inl le_rfl)⟩

theorem announces_reorderGuildRoles {positions : List (ℤ × ℕ)}
    (ran : reorderGuildRoles tables guildID actorUserID positions = .ok outcome) : outcome.Announces tables := by
  simp only [reorderGuildRoles, bind_eq_ok] at ran
  obtain ⟨_, _, _, _, _, _, _, _, _, _, _, _, _, _, _, _, enqueued⟩ := ran
  exact announces_of_unseen wf.overwrites (Changes.updateGuildRolePositions tables guildID positions _)
    (tables_of_enqueueEvents enqueued)

variable {changed : GuildTables} {channel : Channel} {expected : ℤ}

omit wf in
/-- The loop over the users changes the view of those users only. -/
theorem changes_changeRoleMembers {actor : MemberAuthority} {add : Bool} {userIDs : List ℤ}
    (looped : userIDs.foldlM (changeRoleMember actor guildID roleID add) tables = .ok changed) :
    Changes tables changed fun guild user => guild = guildID ∧ user ∈ userIDs := by
  induction userIDs generalizing tables with
  | nil =>
    cases looped
    exact .refl _ _
  | cons first userIDs ih =>
    obtain ⟨middle, one, rest⟩ := bind_eq_ok.mp looped
    have step : Changes tables middle (Only guildID first) := by
      simp only [changeRoleMember, bind_eq_ok] at one
      obtain ⟨_, _, _, _, made⟩ := one
      cases made
      split_ifs
      · exact Changes.addGuildMemberRole tables ⟨guildID, first, roleID⟩
      · exact Changes.removeGuildMemberRole tables ⟨guildID, first, roleID⟩
    refine (step.mono ?_).trans ((ih rest).mono ?_)
    · rintro guild user ⟨rfl, rfl⟩
      exact ⟨rfl, mem_cons_self⟩
    · rintro guild user ⟨rfl, member⟩
      exact ⟨rfl, mem_cons_of_mem _ member⟩

theorem announces_changeGuildRoleMembers {userIDs : List ℤ} {add : Bool}
    (ran : changeGuildRoleMembers tables guildID actorUserID roleID userIDs add = .ok outcome) :
    outcome.Announces tables := by
  simp only [changeGuildRoleMembers, bind_eq_ok] at ran
  obtain ⟨_, _, _, _, _, _, _, _, _, _, _, _, changed, looped, enqueued⟩ := ran
  refine announces_of_enqueued wf.guilds wf.overwrites (changes_changeRoleMembers looped) enqueued ?_
  rintro _ user ⟨rfl, member⟩
  exact ⟨_, mem_map_of_mem member, rfl, reaches_of_stage (by decide) mem_cons_self (.inr rfl)⟩

omit wf in
theorem id_of_getGuildChannel (loaded : tables.getGuildChannel channelID = some channel) :
    channel.id = channelID := by
  have found := find?_some loaded
  simp only [decide_eq_true_eq] at found
  exact found.1

theorem guildID_of_channel (loaded : tables.getGuildChannel channelID = some channel) :
    ∀ row ∈ tables.channels, row.id = channelID → row.guildID = channel.guildID := by
  intro row member here
  rw [inj_on_of_nodup_map wf.channels member (mem_of_find?_eq_some loaded)
    (here.trans (id_of_getGuildChannel loaded).symm)]

/-- No overwrite of a channel names another guild than the channel's. -/
theorem guildID_of_overwrite (loaded : tables.getGuildChannel channelID = some channel) :
    ∀ row ∈ tables.overwrites, row.channelID = channelID → row.guildID = channel.guildID := by
  intro row member here
  obtain ⟨other, stored, id, same⟩ := wf.overwritten row member
  rw [← same]
  exact guildID_of_channel wf loaded other stored (id.trans here)

/-- A new channel has no overwrite yet. -/
theorem announces_createGuildChannel {type : ChannelType} {parentID : ℤ}
    (ran : createGuildChannel limits tables guildID actorUserID channelID type parentID expected = .ok outcome) :
    outcome.Announces tables := by
  simp only [createGuildChannel, bind_eq_ok] at ran
  obtain ⟨_, _, _, _, _, _, _, _, _, _, _, _, _, _, _, _, created, made, _, _, changed, advanced, enqueued⟩ := ran
  have positions := Changes.updateGuildChannelPositions tables guildID
    (newChannelPlace (tables.listGuildChannels guildID) type parentID).2 (Everyone guildID)
  have free : ∀ row ∈ created.overwrites, row.channelID = channelID → row.guildID = guildID := by
    unfold GuildTables.createGuildChannel at made
    split_ifs at made with taken
    cases made
    intro row member here
    obtain ⟨other, stored, id, _⟩ := wf.overwritten row member
    refine absurd (.inr ?_) taken
    rw [ids_positions]
    exact mem_map.mpr ⟨other, stored, id.trans here⟩
  have upserted : Changes created (created.upsertGuildChannelPermissionOverwrite
      { channelID, guildID, appliesTo := .role, appliesToID := guildID }) (Everyone guildID) :=
    (Changes.upsertGuildChannelPermissionOverwrite free).mono fun _ _ meant => meant.1
  have changes := positions.trans ((Changes.createGuildChannel made).trans
    (upserted.trans (Changes.advanceGuildChannelLayoutRevision advanced (Everyone guildID))))
  refine announces_of_enqueued wf.guilds wf.overwrites changes enqueued ?_
  rintro _ user rfl
  exact ⟨_, mem_append_right _ mem_cons_self, rfl,
    reaches_of_stage (by decide) (mem_cons_of_mem _ mem_cons_self) (.inl le_rfl)⟩

theorem announces_updateGuildChannel {rename : Bool} {parentID : Option ℤ}
    (ran : updateGuildChannel tables channelID actorUserID rename parentID expected = .ok outcome) :
    outcome.Announces tables := by
  simp only [updateGuildChannel, bind_eq_ok] at ran
  obtain ⟨_, _, _, _, _, _, _, _, channel, _, _, _, _, _, _, _, _, _, rest⟩ := ran
  split_ifs at rest
  · exact announces_of_unseen wf.overwrites (.refl tables _) (tables_of_enqueueEvents rest)
  · obtain ⟨⟨changed, moved⟩, made, enqueued⟩ := bind_eq_ok.mp rest
    simp only [moveChannel, bind_eq_ok] at made
    obtain ⟨updates, _, _, _, _, _, advanced, done, same⟩ := made
    cases same
    exact announces_of_unseen wf.overwrites ((Changes.updateGuildChannelPositions tables channel.guildID updates _).trans
      (Changes.advanceGuildChannelLayoutRevision done _)) (tables_of_enqueueEvents enqueued)

omit wf in
theorem changes_detachChildren (channel : Channel) (audience : ℤ → ℤ → Prop) :
    Changes tables (detachChildren tables channel) audience := by
  unfold detachChildren
  split_ifs
  · exact Changes.clearGuildChannelParent ..
  · exact .refl ..

omit wf in
theorem overwrites_detachChildren (channel : Channel) : (detachChildren tables channel).overwrites = tables.overwrites := by
  unfold detachChildren
  split_ifs <;> rfl

omit wf in
/-- Detached channels are the same channels of the same guilds. -/
theorem mem_detachChildren {row : Channel} (member : row ∈ (detachChildren tables channel).channels) :
    ∃ stored ∈ tables.channels, stored.id = row.id ∧ stored.guildID = row.guildID := by
  unfold detachChildren at member
  split_ifs at member
  · simp only [clearGuildChannelParent, updateRows, mem_map] at member
    obtain ⟨stored, known, rfl⟩ := member
    refine ⟨stored, known, ?_⟩
    split_ifs
    · exact ⟨rfl, rfl⟩
    · exact ⟨rfl, rfl⟩
  · exact ⟨row, member, rfl, rfl⟩

theorem announces_deleteGuildChannel
    (ran : deleteGuildChannel tables channelID actorUserID expected = .ok outcome) : outcome.Announces tables := by
  simp only [deleteGuildChannel, bind_eq_ok] at ran
  obtain ⟨_, _, _, _, channel, read, _, _, _, _, _, _, deleted, removed, changed, advanced, enqueued⟩ := ran
  have loaded := found_eq_ok.mp read
  obtain rfl := id_of_getGuildChannel loaded
  have overwrites : Changes (detachChildren tables channel)
      ((detachChildren tables channel).deleteGuildChannelPermissionOverwrites channel.id) (Everyone channel.guildID) := by
    refine Changes.deleteGuildChannelPermissionOverwrites fun row member here => ?_
    rw [overwrites_detachChildren] at member
    exact guildID_of_overwrite wf loaded row member here
  have removal : Changes ((detachChildren tables channel).deleteGuildChannelPermissionOverwrites channel.id) deleted
      (Everyone channel.guildID) := by
    refine Changes.deleteGuildChannel (fun row member here => ?_) removed
    obtain ⟨stored, known, id, guild⟩ := mem_detachChildren member
    rw [← guild]
    exact guildID_of_channel wf loaded stored known (id.trans here)
  have changes := (changes_detachChildren channel _).trans
    (overwrites.trans (removal.trans (Changes.advanceGuildChannelLayoutRevision advanced _)))
  refine announces_of_enqueued wf.guilds wf.overwrites changes enqueued ?_
  rintro _ user rfl
  exact ⟨_, mem_cons_self, rfl, reaches_of_stage (by decide) mem_cons_self (.inl le_rfl)⟩

theorem announces_reorderGuildChannels {items : List ChannelPlacement}
    (ran : reorderGuildChannels tables guildID actorUserID items expected = .ok outcome) :
    outcome.Announces tables := by
  simp only [reorderGuildChannels, bind_eq_ok] at ran
  obtain ⟨_, _, _, _, _, _, _, _, _, _, _, _, _, _, _, _, updates, _, rest⟩ := ran
  split_ifs at rest
  · cases rest
    exact announces_of_unseen wf.overwrites (.refl tables _) rfl
  · simp only [bind_eq_ok] at rest
    obtain ⟨_, _, changed, advanced, enqueued⟩ := rest
    exact announces_of_unseen wf.overwrites ((Changes.updateGuildChannelPositions tables guildID updates _).trans
      (Changes.advanceGuildChannelLayoutRevision advanced _)) (tables_of_enqueueEvents enqueued)

theorem announces_upsertOverwrite {appliesTo : AppliesTo} {appliesToID : ℤ} {allow deny : Permissions}
    (ran : upsertGuildChannelPermissionOverwrite limits tables channelID actorUserID appliesTo appliesToID allow deny =
      .ok outcome) : outcome.Announces tables := by
  simp only [upsertGuildChannelPermissionOverwrite, bind_eq_ok] at ran
  obtain ⟨_, _, channel, read, _, _, _, _, _, _, _, _, enqueued⟩ := ran
  have loaded := found_eq_ok.mp read
  obtain rfl := id_of_getGuildChannel loaded
  have changes : Changes tables (tables.upsertGuildChannelPermissionOverwrite
      { channelID := channel.id, guildID := channel.guildID, appliesTo, appliesToID, allow, deny })
      (Changes.Meant appliesTo channel.guildID appliesToID) :=
    Changes.upsertGuildChannelPermissionOverwrite (guildID_of_overwrite wf loaded)
  exact announces_single wf changes enqueued fun _ _ meant => ⟨meant.1.symm, reaches_of_stage (by decide)
    (mem_cons_of_mem _ mem_cons_self) (invalidates_accessTarget (.inl rfl) rfl meant.2)⟩

theorem announces_deleteOverwrite {appliesTo : AppliesTo} {appliesToID : ℤ}
    (ran : deleteGuildChannelPermissionOverwrite tables channelID actorUserID appliesTo appliesToID = .ok outcome) :
    outcome.Announces tables := by
  simp only [deleteGuildChannelPermissionOverwrite, bind_eq_ok] at ran
  obtain ⟨_, _, channel, read, _, _, _, _, _, _, _, _, enqueued⟩ := ran
  have loaded := found_eq_ok.mp read
  obtain rfl := id_of_getGuildChannel loaded
  refine announces_single wf (Changes.deleteGuildChannelPermissionOverwrite (guildID_of_overwrite wf loaded)) enqueued
    fun _ _ meant => ⟨meant.1.symm, ?_⟩
  exact reaches_of_stage (by decide) (mem_cons_of_mem _ mem_cons_self) (invalidates_accessTarget (.inr rfl) rfl meant.2)

theorem announces_addGuildMember (ran : addGuildMember limits tables guildID actorUserID userID = .ok outcome) :
    outcome.Announces tables := by
  simp only [addGuildMember, bind_eq_ok] at ran
  obtain ⟨_, _, _, valid, _, _, _, _, _, _, _, _, changed, created, enqueued⟩ := ran
  exact announces_single wf (Changes.createGuildMember created) enqueued fun _ _ only =>
    ⟨only.1.symm, by rw [only.2]; exact reaches_memberJoined (require_eq_ok.mp valid)⟩

theorem announces_joinGuildByInvite {code : String} {now : ℤ}
    (ran : joinGuildByInvite limits tables code userID now = .ok outcome) : outcome.Announces tables := by
  simp only [joinGuildByInvite, bind_eq_ok] at ran
  obtain ⟨_, valid, invite, _, _, _, _, _, _, _, _, _, changed, created, enqueued⟩ := ran
  have changes := (Changes.consumeGuildInvite tables code (Only invite.guildID userID)).trans
    (Changes.createGuildMember created)
  exact announces_single wf changes enqueued fun _ _ only =>
    ⟨only.1.symm, by rw [only.2]; exact reaches_memberJoined (require_eq_ok.mp valid)⟩

omit wf in
theorem changes_departMember (departed : departMember tables guildID userID = .ok changed) :
    Changes tables changed (Only guildID userID) := by
  have overwrites : Changes (tables.deleteGuildMemberRoleAssignments guildID userID) _ (Only guildID userID) :=
    (Changes.deleteGuildChannelPermissionOverwritesForAppliesTo _ guildID .member userID).mono
      fun _ _ meant => ⟨meant.1, meant.2 rfl⟩
  exact (Changes.deleteGuildMemberRoleAssignments tables guildID userID).trans
    (overwrites.trans (Changes.removeGuildMember departed))

theorem announces_leaveGuild (ran : leaveGuild tables guildID userID = .ok outcome) : outcome.Announces tables := by
  simp only [leaveGuild, bind_eq_ok] at ran
  obtain ⟨_, _, _, _, _, _, _, _, changed, departed, enqueued⟩ := ran
  exact announces_single wf (changes_departMember departed) enqueued fun _ _ only =>
    ⟨only.1.symm, reaches_of_stage (by decide) mem_cons_self (.inr only.2.symm)⟩

theorem announces_kickGuildMember (ran : kickGuildMember tables guildID actorUserID userID = .ok outcome) :
    outcome.Announces tables := by
  simp only [kickGuildMember, bind_eq_ok] at ran
  obtain ⟨_, _, _, _, _, _, _, _, _, _, _, _, _, _, changed, departed, enqueued⟩ := ran
  exact announces_single wf (changes_departMember departed) enqueued fun _ _ only =>
    ⟨only.1.symm, reaches_of_stage (by decide) mem_cons_self (.inr only.2.symm)⟩

omit wf in
theorem changes_departForBan {actor : MemberAuthority}
    (departed : departForBan tables actor guildID userID = .ok changed) :
    Changes tables changed (Only guildID userID) := by
  unfold departForBan at departed
  split at departed
  · obtain ⟨_, _, departed⟩ := bind_eq_ok.mp departed
    exact changes_departMember departed
  · cases departed
    exact .refl ..
  · cases departed

theorem announces_banGuildMember (ran : banGuildMember tables guildID actorUserID userID = .ok outcome) :
    outcome.Announces tables := by
  simp only [banGuildMember, bind_eq_ok] at ran
  obtain ⟨_, _, _, _, _, _, _, _, _, _, _, _, changed, departed, enqueued⟩ := ran
  have changes := (changes_departForBan departed).trans (Changes.upsertGuildBan changed ⟨guildID, userID⟩ _)
  exact announces_single wf changes enqueued fun _ _ only =>
    ⟨only.1.symm, reaches_of_stage (by decide) mem_cons_self (.inr only.2.symm)⟩

theorem announces_transferGuildOwnership {newOwnerID : ℤ}
    (ran : transferGuildOwnership limits tables guildID actorUserID newOwnerID = .ok outcome) :
    outcome.Announces tables := by
  simp only [transferGuildOwnership, bind_eq_ok] at ran
  obtain ⟨_, _, _, _, _, _, _, _, _, _, _, _, _, _, changed, transferred, enqueued⟩ := ran
  exact announces_single wf (Changes.transferGuildOwnership transferred) enqueued fun _ _ here =>
    ⟨here.symm, reaches_of_stage (by decide) mem_cons_self (.inl le_rfl)⟩

theorem announces_deleteGuild (ran : deleteGuild tables guildID actorUserID = .ok outcome) :
    outcome.Announces tables := by
  simp only [deleteGuild, bind_eq_ok] at ran
  obtain ⟨_, _, _, _, _, _, deleted, gone, enqueued⟩ := ran
  have emptied := (Changes.deleteGuild gone).trans ((Changes.deleteGuildMembers deleted guildID).trans
    ((Changes.deleteAllGuildRoleAssignments _ guildID).trans
      (Changes.deleteAllGuildChannelPermissionOverwrites _ guildID)))
  have changes := emptied.trans ((Changes.deleteGuildChannels _ guildID).trans ((Changes.deleteGuildBans _ guildID _).trans
    ((Changes.deleteGuildInvites _ guildID _).trans (Changes.deleteGuildRoles _ guildID))))
  exact announces_single wf changes enqueued fun _ _ here =>
    ⟨here.symm, .detachGuild, mem_cons_of_mem _ mem_cons_self, .inl trivial⟩

/-- Every operation announces the views it changes. -/
theorem announces_run {operation : GuildOperation} (ran : operation.run limits tables = .ok outcome) :
    outcome.Announces tables := by
  cases operation with
  | createRole => exact announces_createGuildRole wf ran
  | updateRole => exact announces_updateGuildRole wf ran
  | deleteRole => exact announces_deleteGuildRole wf ran
  | reorderRoles => exact announces_reorderGuildRoles wf ran
  | changeRoleMembers | changeMemberRole =>
    obtain ⟨_, _, ran⟩ := bind_eq_ok.mp ran
    obtain ⟨_, _, ran⟩ := bind_eq_ok.mp ran
    exact announces_changeGuildRoleMembers wf ran
  | createChannel => exact announces_createGuildChannel wf ran
  | updateChannel => exact announces_updateGuildChannel wf ran
  | deleteChannel => exact announces_deleteGuildChannel wf ran
  | reorderChannels => exact announces_reorderGuildChannels wf ran
  | upsertOverwrite => exact announces_upsertOverwrite wf ran
  | deleteOverwrite => exact announces_deleteOverwrite wf ran
  | addMember => exact announces_addGuildMember wf ran
  | joinByInvite => exact announces_joinGuildByInvite wf ran
  | leave => exact announces_leaveGuild wf ran
  | kick => exact announces_kickGuildMember wf ran
  | ban => exact announces_banGuildMember wf ran
  | transferOwnership => exact announces_transferGuildOwnership wf ran
  | delete => exact announces_deleteGuild wf ran

end Operations

/-- If an operation changes the channels that somebody can view in a guild, then it raises the guild's access
revision and enqueues an event that invalidates or removes the user's visibility entry at the new revision. -/
theorem access_change_announced {limits : GuildLimits} {tables : GuildTables} (wf : tables.WellFormed limits)
    {operation : GuildOperation} {outcome : Outcome} (ran : operation.run limits tables = .ok outcome)
    {guildID userID : ℤ} (changed : ¬ SameView tables outcome.tables guildID userID) :
    tables.revision guildID < outcome.tables.revision guildID ∧
      ∃ event ∈ outcome.events, event.guildID = guildID ∧
        event.InvalidatesOrRemoves userID (outcome.tables.revision guildID) := by
  obtain ⟨raised, event, enqueued, rfl, stage, member, settles⟩ := announces_run wf ran guildID userID changed
  refine ⟨raised, event, enqueued, rfl, ?_⟩
  intro cfg start final id committed now envelope steps type routing new run listed ended
  rw [← type] at member
  exact Session.reflects_of_dispatched routing member settles new run listed ended

/-- User 2 of `quietGuild` on a node, with the channel that the role shows in view. -/
def memberIdentifies : List Session.DispatchEvent :=
  [.load 0 ⟨"sess-1", 2, 2001, "conn-1", "gw-1", "gen-1"⟩ (.ok [⟨7, 1, [⟨9, 7⟩]⟩]), .addSession 0 0,
    .retainSnapshots 0, .ready 0 Session.emptyObject fun _ => ⟨0, true⟩]

def roleRemoved : Session.EventEnvelope where
  type := "guild.member.roles.updated"
  routing := some { userID := 2, accessRevision := 2 }
  idempotencyKey := 8

/-- The node lists the session and invalidates the user's entry, then lists the session again and hands the
event to it. -/
def roleRemovedSteps : List Session.DispatchEvent :=
  [.list 0 [0], .run 0 0, .list 0 [0], .offer 0 0 ⟨0, true⟩, .run 0 0, .finish 0]

/-- The owner takes the role from user 2, who then does not see the channel any more. -/
theorem removed_role_announced : ∃ outcome start final,
    (GuildOperation.changeMemberRole 7 1 2 8 false).run {} quietGuild = .ok outcome ∧
    quietGuild.revision 7 < outcome.tables.revision 7 ∧
    (Session.dispatchMachine {}).run {} memberIdentifies = some start ∧
    (Session.dispatchMachine {}).run start (.dispatch 0 (.guild 7) roleRemoved 0 0 :: roleRemovedSteps) = some final ∧
    ∃ before middle, (Session.dispatchMachine {}).run start (.dispatch 0 (.guild 7) roleRemoved 0 0 :: before) =
      some middle ∧ Session.ReflectsRevision middle.users 2 7 2 := by
  obtain ⟨outcome, ran, events, revision, gone⟩ : ∃ outcome,
      (GuildOperation.changeMemberRole 7 1 2 8 false).run {} quietGuild = .ok outcome ∧
      outcome.events = [⟨"guild.member.roles.updated", 7, { userID := 2, accessRevision := 2 }⟩] ∧
      outcome.tables.revision 7 = 2 ∧ outcome.tables.viewableChannels 7 2 = [] := by
    refine ⟨_, rfl, ?_⟩
    decide
  have seen : quietGuild.viewableChannels 7 2 = [9] := by decide
  have changed : ¬ SameView quietGuild outcome.tables 7 2 := by
    intro same
    have visible := same 9
    simp [seen, gone] at visible
  obtain ⟨raised, event, enqueued, _, settles⟩ := access_change_announced quietGuild_wellFormed ran changed
  rw [events] at enqueued
  cases List.mem_singleton.mp enqueued
  rw [revision] at settles
  refine ⟨outcome, _, _, ran, raised, rfl, rfl, ?_⟩
  obtain ⟨before, _, middle, _, reached, reflects⟩ :=
    settles {} (((Session.dispatchMachine {}).run {} memberIdentifies).get rfl) _ 0 0 0 roleRemoved roleRemovedSteps
      rfl rfl (by decide) rfl (by decide) rfl
  exact ⟨before, middle, reached, reflects⟩

end Cordis.Guild
