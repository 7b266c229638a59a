import Cordis.Guild.ProfileProjector
import Cordis.User.ProfileOrder
import Mathlib.Algebra.Order.Ring.Int

/-! # The projected profiles converge

Updates of profiles run in the user service, and the guild's worker handles the events of every user in the
order of their sequences, some of them again after a redelivery. Profiles and events are ordered by locks, but
the worker compares the times of the updates, from the clocks of several nodes. The event of an update that has
found a row with a later time is skipped for good.

If no update has a time before that of the row it changes, the rows of a user whose events are all handled
have the username, the name and the avatar of the profile.
-/

namespace Cordis.Guild

open Outbox User Function List Option

/-- The user service, the projected rows, and how far the worker is in each stream. -/
structure ProjectionState where
  service : UserServiceState
  rows : List GuildMemberProfile
  handled : String → ℕ := fun _ => 0

inductive ProjectionEvent where
  | service (event : ServiceEvent UserCall)
  /-- The worker handles the next record of a stream. -/
  | handle (streamKey : String)
  /-- The worker is given the records of a stream again, from an earlier one on. -/
  | redeliver (streamKey : String) (handled : ℕ)

namespace ProjectionState

def handle (state : ProjectionState) (streamKey : String) (record : Record UserEvent) : ProjectionState :=
  { state with
    rows := handleProfileRecord state.rows record.body
    handled := Function.update state.handled streamKey (state.handled streamKey + 1) }

def step (shardCount : ℕ) (state : ProjectionState) : ProjectionEvent → Option ProjectionState
  | .service event => ((userService shardCount).machine.step state.service event).map fun service => { state with service }
  | .handle streamKey =>
    (state.service.store.outbox.record streamKey (state.handled streamKey + 1)).map (state.handle streamKey)
  | .redeliver streamKey handled =>
    if handled ≤ state.handled streamKey then
      some { state with handled := Function.update state.handled streamKey handled }
    else none

end ProjectionState

def projectionMachine (shardCount : ℕ) : Machine ProjectionState ProjectionEvent where
  step := ProjectionState.step shardCount

/-- The row shows the profile. -/
def GuildMemberProfile.Shows (row : GuildMemberProfile) (profile : UserProfile) : Prop :=
  row.username = profile.username ∧ row.name = profile.name ∧ row.avatarAssetID = profile.avatarAssetID
deriving Decidable

def UpdatesInTime (state : ProjectionState) : ProjectionEvent → Prop
  | .service (.exec id) => RunsInTime state.service id
  | .service (.begin _ _) | .service (.commit _) | .service (.rollback _) | .handle _ | .redeliver _ _ => True

instance (state : ProjectionState) : ∀ event, Decidable (UpdatesInTime state event)
  | .service (.exec id) => inferInstanceAs (Decidable (RunsInTime state.service id))
  | .service (.begin _ _) | .service (.commit _) | .service (.rollback _) | .handle _ | .redeliver _ _ => isTrue trivial

section Projection

/-- The events about the user. -/
def about (userID : ℤ) (log : List (Record UserEvent)) : List (Record UserEvent) :=
  log.filter fun record => record.body.data.userID = some userID

theorem about_append (userID : ℤ) (first second : List (Record UserEvent)) :
    about userID (first ++ second) = about userID first ++ about userID second :=
  filter_append ..

theorem about_singleton {userID : ℤ} {record : Record UserEvent} {profile : UserProfile}
    (event : record.body = newUserProfileUpdatedEvent profile) :
    about userID [record] = if profile.userID = userID then [record] else [] := by
  simp [about, event, newUserProfileUpdatedEvent, userProfilePayloadFromModel, filter_cons]

variable {userID : ℤ} {rows : List GuildMemberProfile} {row : GuildMemberProfile} {log : List (Record UserEvent)}
  {handled : ℕ} {profile new : UserProfile} {record : Record UserEvent}

/-- An event with a profile changes the rows of its user that have no later time. -/
theorem handleProfileRecord_eq (positive : 0 < profile.userID) (avatar : 0 ≤ profile.avatarAssetID)
    (rows : List GuildMemberProfile) : handleProfileRecord rows (newUserProfileUpdatedEvent profile) =
      updateGuildMemberProfilesByUser ⟨profile.userID, profile.username, profile.name, max profile.updatedAt 0⟩
        profile.avatarAssetID rows := by
  simp [handleProfileRecord, newUserProfileUpdatedEvent, userProfilePayloadFromModel, validUserID, validAvatar, positive,
    avatar, Option.filter]

/-- Rows of other users stay. -/
theorem mem_of_mem_handle (avatar : 0 ≤ profile.avatarAssetID)
    (member : row ∈ handleProfileRecord rows (newUserProfileUpdatedEvent profile)) (other : row.userID ≠ profile.userID) :
    row ∈ rows := by
  by_cases positive : 0 < profile.userID
  · rw [handleProfileRecord_eq positive avatar] at member
    obtain ⟨old, stored, rfl⟩ := List.mem_map.mp member
    split_ifs at other ⊢ with applies
    · exact (other applies.1).elim
    · exact stored
  · simpa [handleProfileRecord, newUserProfileUpdatedEvent, userProfilePayloadFromModel, validUserID, positive,
      Option.filter] using member

/-- The rows of the user have been overwritten, or have a later time. -/
theorem mem_handle_cases (positive : 0 < profile.userID) (avatar : 0 ≤ profile.avatarAssetID)
    (member : row ∈ handleProfileRecord rows (newUserProfileUpdatedEvent profile)) :
    (row ∈ rows ∧ (row.userID = profile.userID → max profile.updatedAt 0 < row.profileUpdatedAt)) ∨
      row.Shows profile ∧ row.profileUpdatedAt = max profile.updatedAt 0 := by
  rw [handleProfileRecord_eq positive avatar] at member
  obtain ⟨old, stored, rfl⟩ := mem_map.mp member
  split_ifs with applies
  · exact .inr ⟨⟨rfl, rfl, rfl⟩, rfl⟩
  · exact .inl ⟨stored, fun same => not_le.mp fun early => applies ⟨same, early⟩⟩

/-- What the worker knows of a user's events: none is later than the profile, the last one has the profile,
and when all are handled the rows show it. -/
structure Projected (log : List (Record UserEvent)) (handled : ℕ) (rows : List GuildMemberProfile) (userID : ℤ)
    (profile : UserProfile) : Prop where
  earlier : ∀ record ∈ about userID log, record.body.data.updatedAt ≤ profile.updatedAt
  times : ∀ row ∈ rows, row.userID = userID → row.profileUpdatedAt ≤ max profile.updatedAt 0
  last : ∀ record, (about userID log).getLast? = some record → record.body = newUserProfileUpdatedEvent profile
  shown : about userID (log.drop handled) = [] → ∀ row ∈ rows, row.userID = userID → row.Shows profile

namespace Projected

variable (projected : Projected log handled rows userID profile)

include projected

/-- Rows of the user that stay are as good as before. -/
theorem of_rows {others : List GuildMemberProfile}
    (stay : ∀ row ∈ others, row.userID = userID → row ∈ rows) : Projected log handled others userID profile where
  earlier := projected.earlier
  times row member same := projected.times row (stay row member same) same
  last := projected.last
  shown none row member same := projected.shown none row (stay row member same) same

theorem redeliver {again : ℕ} (before : again ≤ handled) :
    Projected log again rows userID profile where
  earlier := projected.earlier
  times := projected.times
  last := projected.last
  shown none := by
    refine projected.shown (eq_nil_of_subset_nil fun record member => none ▸ ?_)
    rw [← Nat.add_sub_of_le before, ← drop_drop] at member
    exact ((drop_sublist _ _).filter _).subset member

variable (event : record.body = newUserProfileUpdatedEvent new)

include event

/-- Handling the next record of the stream. The last event of the user is not skipped, as no row has a later
time than the profile. -/
theorem handle (here : log[handled]? = some record) (valid : Publishable new) :
    Projected log (handled + 1) (handleProfileRecord rows record.body) userID profile := by
  obtain ⟨positive, avatar⟩ := valid
  obtain ⟨bound, isHere⟩ := List.getElem?_eq_some_iff.mp here
  have split : log.drop handled = [record] ++ log.drop (handled + 1) := by
    rw [drop_eq_getElem_cons bound, isHere, singleton_append]
  rw [event]
  by_cases same : new.userID = userID
  · subst same
    have listed : about new.userID log =
        about new.userID (log.take handled) ++ record :: about new.userID (log.drop (handled + 1)) := by
      conv_lhs => rw [← take_append_drop handled log, split, about_append, about_append, about_singleton event, if_pos rfl]
      rfl
    have early : new.updatedAt ≤ profile.updatedAt := by
      have early := projected.earlier record (by simp [listed])
      rwa [event] at early
    refine ⟨projected.earlier, fun row member isUser => ?_, projected.last, fun none row member isUser => ?_⟩
    · rcases mem_handle_cases positive avatar member with ⟨stays, _⟩ | ⟨_, time⟩
      · exact projected.times row stays isUser
      · rw [time]
        exact max_le_max_right 0 early
    · have last : record.body = newUserProfileUpdatedEvent profile := projected.last record (by rw [listed, none]; simp)
      have isLast : newUserProfileUpdatedEvent new = newUserProfileUpdatedEvent profile := event.symm.trans last
      simp only [newUserProfileUpdatedEvent, userProfilePayloadFromModel, UserEvent.mk.injEq, UserProfilePayload.mk.injEq,
        some.injEq, true_and] at isLast
      obtain ⟨_, name, _, avatarAssetID, _, updatedAt, username⟩ := isLast
      rcases mem_handle_cases positive avatar member with ⟨stays, later⟩ | ⟨shows, _⟩
      · have time := projected.times row stays isUser
        have later := later isUser
        rw [updatedAt] at later
        exact (not_le.mpr later time).elim
      · exact ⟨shows.1.trans username, shows.2.1.trans name, shows.2.2.trans avatarAssetID⟩
  · have stay (row : GuildMemberProfile) (member : row ∈ handleProfileRecord rows (newUserProfileUpdatedEvent new))
        (isUser : row.userID = userID) : row ∈ rows :=
      mem_of_mem_handle avatar member fun theirs => same (theirs.symm.trans isUser)
    have kept := projected.of_rows stay
    refine ⟨kept.earlier, kept.times, kept.last, fun none => kept.shown ?_⟩
    rw [split, about_append, about_singleton event, if_neg same, none, append_nil]

/-- A committed update of the user is a new event that has not been handled. -/
theorem append (ofUser : new.userID = userID) (order : profile.updatedAt ≤ new.updatedAt)
    (within : handled ≤ log.length) : Projected (log ++ [record]) handled rows userID new := by
  have listed (first : List (Record UserEvent)) : about userID (first ++ [record]) = about userID first ++ [record] := by
    rw [about_append, about_singleton event, if_pos ofUser]
  refine ⟨fun other member => ?_, fun row member same => ?_, fun other isLast => ?_, fun none => ?_⟩
  · rw [listed] at member
    rcases mem_append.mp member with old | isNew
    · exact (projected.earlier other old).trans order
    · rw [mem_singleton.mp isNew, event]
      exact le_rfl
  · exact (projected.times row member same).trans (max_le_max_right 0 order)
  · rw [listed, getLast?_concat] at isLast
    rw [← some.inj isLast, event]
  · rw [drop_append_of_le_length within, listed] at none
    simp at none

/-- A committed update of another user whose events are in the stream. -/
theorem append_of_ne (other : new.userID ≠ userID) (within : handled ≤ log.length) :
    Projected (log ++ [record]) handled rows userID profile := by
  have listed (first : List (Record UserEvent)) : about userID (first ++ [record]) = about userID first := by
    rw [about_append, about_singleton event, if_neg other, append_nil]
  refine ⟨?_, projected.times, ?_, ?_⟩
  · rw [listed]
    exact projected.earlier
  · rw [listed]
    exact projected.last
  · rw [drop_append_of_le_length within, listed]
    exact projected.shown

end Projected

end Projection

section Runs

variable {shardCount : ℕ} {state next : ProjectionState}

/-- The service is ordered, its records are events of profiles, and every profile is projected. -/
structure Converging (shardCount : ℕ) (state : ProjectionState) : Prop where
  ordered : Ordered shardCount state.service
  published : ∀ record ∈ state.service.store.outbox.history, ∃ profile, Publishable profile ∧
    record.streamKey = User.streamKey profile.userID ∧ record.body = newUserProfileUpdatedEvent profile
  within : ∀ key, state.handled key ≤ (inStream key state.service.store.outbox.history).length
  projected : ∀ userID profile, state.service.store.profiles.find none userID = some profile →
    Projected (inStream (User.streamKey userID) state.service.store.outbox.history)
      (state.handled (User.streamKey userID)) state.rows userID profile

variable (converging : Converging shardCount state)

include converging

/-- The rows of another user are not changed by an event. -/
theorem Converging.handle {key : String} {record : Record UserEvent}
    (read : state.service.store.outbox.record key (state.handled key + 1) = some record) :
    Converging shardCount (state.handle key record) := by
  rw [converging.ordered.sound.record_eq] at read
  obtain ⟨bound, _⟩ := List.getElem?_eq_some_iff.mp read
  obtain ⟨member, isKey⟩ := mem_inStream.mp (mem_of_getElem? read)
  obtain ⟨new, valid, ofUser, event⟩ := converging.published record member
  refine ⟨converging.ordered, converging.published, fun other => ?_, fun userID profile stored => ?_⟩
  · simp only [ProjectionState.handle]
    by_cases same : other = key
    · subst same
      rw [update_self]
      exact bound
    · rw [update_of_ne same]
      exact converging.within other
  · have projected := converging.projected userID profile stored
    simp only [ProjectionState.handle]
    by_cases same : User.streamKey userID = key
    · subst same
      rw [update_self]
      exact projected.handle event read valid
    · rw [update_of_ne same]
      refine projected.of_rows fun row member isUser => ?_
      rw [event] at member
      refine mem_of_mem_handle valid.2 member fun theirs => same ?_
      rw [← isKey, ofUser, ← theirs, isUser]

theorem Converging.redeliver {key : String} {handled : ℕ} (before : handled ≤ state.handled key) :
    Converging shardCount { state with handled := update state.handled key handled } := by
  have earlier (other : String) : update state.handled key handled other ≤ state.handled other := by
    by_cases same : other = key
    · subst same
      rwa [update_self]
    · rw [update_of_ne same]
  exact ⟨converging.ordered, converging.published, fun other => (earlier other).trans (converging.within other),
    fun userID profile stored => (converging.projected userID profile stored).redeliver (earlier _)⟩

/-- What a step of the service publishes is behind what has been handled. -/
theorem Converging.publish {service : UserServiceState}
    (ordered : Ordered shardCount service) (publishes : Publishes state.service.store service.store) :
    Converging shardCount { state with service } := by
  cases publishes with
  | nothing rows history =>
    refine ⟨ordered, ?_, ?_, fun userID profile stored => ?_⟩
    · simpa only [history] using converging.published
    · simpa only [history] using converging.within
    · rw [rows] at stored
      simpa only [history] using converging.projected userID profile stored
  | profile old new record valid was order ofUser event updated rows history =>
    have log (key : String) : inStream key service.store.outbox.history =
        inStream key state.service.store.outbox.history ++ if User.streamKey new.userID = key then [record] else [] := by
      rw [history, inStream_append]
      simp [inStream, filter_cons, ofUser]
    refine ⟨ordered, fun other member => ?_, fun key => ?_, fun userID profile stored => ?_⟩
    · rw [history] at member
      rcases mem_append.mp member with earlier | isNew
      · exact converging.published other earlier
      · rw [mem_singleton.mp isNew]
        exact ⟨new, valid, ofUser, event⟩
    · rw [log, length_append]
      exact (converging.within key).trans (Nat.le_add_right ..)
    · simp only [log]
      by_cases same : userID = new.userID
      · subst same
        obtain rfl : new = profile := some.inj (updated.symm.trans stored)
        rw [if_pos rfl]
        exact (converging.projected _ old was).append event rfl order (converging.within _)
      · rw [rows userID same] at stored
        have projected := converging.projected userID profile stored
        split_ifs
        · exact projected.append_of_ne event (Ne.symm same) (converging.within _)
        · rwa [append_nil]

theorem converging_step {event : ProjectionEvent} (inTime : UpdatesInTime state event)
    (step : (projectionMachine shardCount).step state event = some next) :
    Converging shardCount next := by
  cases event with
  | service event =>
    obtain ⟨service, moved, rfl⟩ := map_eq_some_iff.mp step
    refine converging.publish (converging.ordered.step ?_ moved) (publishes_step converging.ordered moved)
    rintro id rfl
    exact inTime
  | handle key =>
    obtain ⟨record, read, rfl⟩ := map_eq_some_iff.mp step
    exact converging.handle read
  | redeliver key handled =>
    simp only [projectionMachine, ProjectionState.step] at step
    split_ifs at step with before
    cases step
    exact converging.redeliver before

omit converging

variable (profiles : List UserProfile) (rows : List GuildMemberProfile)

/-- No update is in progress, and no event has been written. -/
def startProjection : ProjectionState where
  service := { store := { profiles := RowTable.ofRows profiles } }
  rows

/-- The rows show the profiles, with no later time. -/
def InSync : Prop :=
  ∀ profile ∈ profiles, ∀ row ∈ rows, row.userID = profile.userID →
    row.Shows profile ∧ row.profileUpdatedAt ≤ max profile.updatedAt 0
deriving Decidable

theorem converging_start {profiles : List UserProfile} {rows : List GuildMemberProfile} (synced : InSync profiles rows) :
    Converging shardCount (startProjection profiles rows) where
  ordered :=
    { listed := Pool.all_empty _
      progress := fun id => (progress_idle rfl).mpr
        ⟨fun userID value => by simp [startProjection, RowTable.not_holds_ofRows], rfl, by simp⟩
      sound := Tables.sound_empty
      held := fun id userID profile held => (RowTable.not_holds_ofRows _ held).elim }
  published := by simp [startProjection]
  within key := Nat.zero_le _
  projected userID profile stored := by
    have found : profiles.find? (fun row => row.userID = userID) = some profile :=
      (RowTable.find_ofRows profiles none userID).symm.trans stored
    have isUser : profile.userID = userID := by simpa using find?_some found
    have inSync (row : GuildMemberProfile) (member : row ∈ rows) (same : row.userID = userID) :=
      synced profile (mem_of_find?_eq_some found) row member (same.trans isUser.symm)
    exact ⟨by simp [startProjection, about], fun row member same => (inSync row member same).2,
      by simp [startProjection, about], fun _ row member same => (inSync row member same).1⟩

/-- If no update has a time before that of the row it changes, then in every run, from rows that show the
profiles, the rows of a user whose events have all been handled show the committed profile. -/
theorem profile_projection_converges {profiles : List UserProfile} {rows : List GuildMemberProfile}
    {events : List ProjectionEvent} {final : ProjectionState} {profile : UserProfile} (synced : InSync profiles rows)
    (run : (projectionMachine shardCount).run (startProjection profiles rows) events = some final)
    (inTime : (projectionMachine shardCount).Along UpdatesInTime (startProjection profiles rows) events)
    (stored : final.service.store.profiles.find none profile.userID = some profile)
    (handled : final.handled (User.streamKey profile.userID) =
      final.service.store.outbox.last (User.streamKey profile.userID)) :
    ∀ row ∈ final.rows, row.userID = profile.userID → row.Shows profile := by
  have converging : Converging shardCount final :=
    Machine.invariant_along (fun _ _ _ inv => converging_step inv) run inTime (converging_start synced)
  refine (converging.projected profile.userID profile stored).shown ?_
  have length : (inStream (User.streamKey profile.userID) final.service.store.outbox.history).length =
      final.service.store.outbox.last (User.streamKey profile.userID) := by
    simpa using congrArg List.length (converging.ordered.sound.sequences (User.streamKey profile.userID))
  rw [handled, List.drop_of_length_le length.le]
  rfl

/-- One user, in one guild. -/
def aliceProfile : UserProfile := { userID := 1, username := "alice", name := "Alice" }

def aliceRow : GuildMemberProfile := { guildID := 10, userID := 1, username := "alice", name := "Alice" }

/-- An update of the name, with the time of its node. -/
def rename (name : String) (now outboxID : ℤ) : UserCall where
  request := .updateUserProfile 1 (some name) none none
  now
  outboxID

/-- The statements of an update, and its commit. -/
def finishes (id : ℕ) : List ProjectionEvent :=
  [.service (.exec id), .service (.exec id), .service (.exec id), .service (.exec id), .service (.commit id)]

/-- Two updates, one after the other; the first event is handled twice. -/
def renamedInTime : List ProjectionEvent :=
  [.service (.begin 1 (rename "Al" 1 101)), .service (.begin 2 (rename "Ally" 2 102))] ++ finishes 1 ++
    [.handle (User.streamKey 1)] ++ finishes 2 ++
    [.redeliver (User.streamKey 1) 0, .handle (User.streamKey 1), .handle (User.streamKey 1)]

def allyProfile : UserProfile := { aliceProfile with name := "Ally", updatedAt := 2 }

theorem renamed_projection_converges : ∃ final,
    (projectionMachine 1).run (startProjection [aliceProfile] [aliceRow]) renamedInTime = some final ∧
      final.service.store.profiles.find none allyProfile.userID = some allyProfile ∧
      ∀ row ∈ final.rows, row.userID = allyProfile.userID → row.Shows allyProfile := by
  refine Machine.exists_run rfl fun run => ⟨by decide, ?_⟩
  exact profile_projection_converges (by decide) run (by decide) (by decide) (by decide)

/-- The second update has read the clock of its node before the first one; its event is skipped. -/
def renamedLate : List ProjectionEvent :=
  [.service (.begin 1 (rename "Al" 2 101)), .service (.begin 2 (rename "Ally" 1 102))] ++ finishes 1 ++ finishes 2 ++
    [.handle (User.streamKey 1), .handle (User.streamKey 1)]

/-- Both updates have committed and both events are handled, but the projection keeps the first name. -/
theorem late_update_never_projected : InSync [aliceProfile] [aliceRow] ∧ ∃ final,
    (projectionMachine 1).run (startProjection [aliceProfile] [aliceRow]) renamedLate = some final ∧
      (∀ id ∈ final.service.started, (final.service.running id).isNone) ∧
      final.handled (User.streamKey 1) = final.service.store.outbox.last (User.streamKey 1) ∧
      (final.service.store.profiles.find none 1).map (·.name) = some "Ally" ∧
      final.rows.map (·.name) = ["Al"] := by
  refine ⟨by decide, _, rfl, ?_⟩
  decide

end Runs

end Cordis.Guild
