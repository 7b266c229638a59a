import Cordis.User.Profiles

/-! # What committed updates of profiles publish

An update holds the lock of its row until it commits, and then reserves the next sequence of the user's
stream, so a commit publishes one profile: the new row, and behind all earlier events the event with it.
Times are another matter, as the time of an update is read before its wait. If it is not before that of the
row the update finds, the times of a user's profiles never go back.
-/

namespace Cordis.User

open Outbox RowTable Tables Pool Service Option

/-- The time of an update is not before that of the row it changes. -/
def InTime (db : UserDatabase) : UserStatement → Prop
  | .update userID _ now => ∀ row ∈ db.profiles.find none userID, row.updatedAt ≤ now
  | .outbox _ => True

instance (db : UserDatabase) : ∀ statement, Decidable (InTime db statement)
  | .update userID _ now => inferInstanceAs (Decidable (∀ row ∈ db.profiles.find none userID, row.updatedAt ≤ now))
  | .outbox _ => isTrue trivial

/-- The next statement of a transaction is in time. -/
def RunsInTime (state : UserServiceState) (id : ℕ) : Prop :=
  ∀ task ∈ state.running id, ∀ statement ∈ Service.nextCall task.script, InTime state.store statement
deriving Decidable

section Transactions

/-- What an event may be written for: a user's number, and an avatar that the column admits. -/
def Publishable (profile : UserProfile) : Prop := 0 < profile.userID ∧ 0 ≤ profile.avatarAssetID

variable (shardCount : ℕ) (call : UserCall) in
/-- What is left of a transaction, with the row it has written and its footprint in the outbox. -/
inductive Stage :
    UserScript Unit → Option UserProfile → Tables.Footprint UserEvent → Prop where
  | failed (error : UserError) (written : Option UserProfile) : Stage (.fail error) written {}
  | updating (userID : ℤ) (change : ProfileChange) (positive : 0 < userID) :
      Stage (updateProfile shardCount call userID change) none {}
  | ensuring (profile : UserProfile) (shard : ℕ) (rest : UserScript Unit)
      (reserving : Stage rest (some profile) {}) :
      Stage (.call (.outbox (.ensureStream (streamKey profile.userID) shard)) fun _ => rest) (some profile) {}
  | reserving (profile : UserProfile) (rest : UserScript Unit)
      (inserting : Stage rest (some profile) { reserved := some (streamKey profile.userID) }) :
      Stage (.call (.outbox (.reserveSequences (streamKey profile.userID) 1)) fun _ => rest) (some profile) {}
  | inserting (profile : UserProfile) :
      Stage (.call (.outbox (.insertBatch [(profileDraft call profile).2])) fun _ => .done ()) (some profile)
        { reserved := some (streamKey profile.userID) }
  | done (profile : UserProfile) : Stage (.done ()) (some profile)
        { inserted := [(streamKey profile.userID, newUserProfileUpdatedEvent profile)] }

theorem stage_enqueue (shardCount : ℕ) (call : UserCall) (profile : UserProfile) :
    Stage shardCount call (enqueueUserEvents shardCount [profileDraft call profile]) (some profile) {} := by
  unfold enqueueUserEvents enqueue
  change Stage shardCount call (Script.each _ [(streamKey profile.userID, [(profileDraft call profile).2])]) _ _
  unfold Script.each
  cases found : shardID (streamKey profile.userID) shardCount with
  | none => exact .failed ..
  | some shard => exact .ensuring profile shard _ (.reserving profile _ (.inserting profile))

theorem positive_of_changeOf {call : UserCall} {request : UserRequest} {userID : ℤ} {change : ProfileChange}
    (accepted : changeOf call request = .ok (userID, change)) : 0 < userID := by
  cases request with
  | updateUserProfile user name bio avatar =>
    obtain ⟨_, positive, rest⟩ := Go.bind_eq_ok.mp accepted
    obtain ⟨_, _, rest⟩ := Go.bind_eq_ok.mp rest
    obtain ⟨_, _, same⟩ := Go.bind_eq_ok.mp rest
    cases same
    exact Go.require_eq_ok.mp positive
  | updateUsername user username =>
    obtain ⟨_, positive, same⟩ := Go.bind_eq_ok.mp accepted
    cases same
    exact Go.require_eq_ok.mp positive
  | completeAvatarUpload user upload =>
    obtain ⟨_, mounted, same⟩ := Go.bind_eq_ok.mp accepted
    cases same
    obtain ⟨_, positive, _⟩ := Go.bind_eq_ok.mp mounted
    exact Go.require_eq_ok.mp positive

theorem stage_script (shardCount : ℕ) (call : UserCall) : Stage shardCount call (userScript shardCount call) none {} := by
  unfold userScript
  cases accepted : changeOf call call.request with
  | error error => exact .failed ..
  | ok change => exact .updating _ _ (positive_of_changeOf accepted)

/-- The transaction has written the row, and nothing else, and has the footprint. -/
structure TxHolds (db : UserDatabase) (id : ℕ) (written : Option UserProfile) (footprint : Tables.Footprint UserEvent) :
    Prop where
  rows : ∀ userID value, db.profiles.Holds id userID value ↔
    ∃ profile, written = some profile ∧ value = some profile ∧ userID = profile.userID
  outbox : db.outbox.footprint id = footprint
  valid : ∀ profile, written = some profile → Publishable profile

variable {shardCount : ℕ} {call : UserCall} {db next : UserDatabase} {id other : ℕ} {statement : UserStatement}
  {written : Option UserProfile} {footprint : Tables.Footprint UserEvent}

theorem userID_apply (now : ℤ) (row : UserProfile) (change : ProfileChange) : (change.apply now row).userID = row.userID := by
  cases change <;> rfl

theorem updatedAt_apply (now : ℤ) (row : UserProfile) (change : ProfileChange) : (change.apply now row).updatedAt = now := by
  cases change <;> rfl

/-- An update finds no row, or writes the new version of the row it has found. -/
theorem update_eq_some {userID now : ℤ} {change : ProfileChange} {updated : Option UserProfile}
    (ran : db.update id userID change now = some (next, updated)) :
    (next = db ∧ updated = none) ∨ ∃ row profiles, db.profiles.find (some id) userID = some row ∧
      updated = some (change.apply now row) ∧ 0 ≤ (change.apply now row).avatarAssetID ∧ next = { db with profiles } ∧
      Writes db.profiles profiles id userID (some (change.apply now row)) := by
  unfold UserDatabase.update at ran
  split at ran
  · cases ran
    exact .inl ⟨rfl, rfl⟩
  · next row found =>
    split_ifs at ran with valid
    obtain ⟨profiles, inserted, same⟩ := map_eq_some_iff.mp ran
    cases same
    have found := (filter_eq_some_iff.mp found).1
    have writes := writes_of_insert inserted
    rw [userID_apply, key_of_find found] at writes
    exact .inr ⟨row, profiles, found, rfl, valid, rfl, writes⟩

variable {reply : statement.Reply}

/-- A statement goes on to the next stage. -/
theorem Stage.exec {rest : statement.Reply → UserScript Unit}
    (stage : Stage shardCount call (.call statement rest) written footprint) (holds : TxHolds db id written footprint)
    (ran : db.exec id statement = some (next, reply)) :
    ∃ written footprint, Stage shardCount call (rest reply) written footprint ∧ TxHolds next id written footprint := by
  generalize script : (Script.call statement rest : UserScript Unit) = whole at stage
  cases stage with
  | failed => cases script
  | done => cases script
  | updating userID change positive =>
    cases script
    rcases update_eq_some ran with ⟨rfl, rfl⟩ | ⟨row, profiles, found, rfl, avatar, rfl, writes⟩
    · exact ⟨none, {}, .failed .., holds⟩
    · refine ⟨_, {}, stage_enqueue shardCount call _, ⟨fun at_ value => ?_, holds.outbox, ?_⟩⟩
      · rw [writes.holds_iff]
        simp only [holds.rows, reduceCtorEq, false_and, exists_false, and_false, or_false, some.injEq, true_and,
          exists_eq_left', userID_apply, key_of_find found]
        exact and_comm
      · rintro _ ⟨⟩
        exact ⟨by rwa [userID_apply, key_of_find found], avatar⟩
  | ensuring profile shard rest stage =>
    cases script
    obtain ⟨outbox, wrote, same⟩ := map_eq_some_iff.mp ran
    cases same
    exact ⟨_, _, stage, holds.rows, (footprint_ensureStream wrote).trans holds.outbox, holds.valid⟩
  | reserving profile rest stage =>
    cases script
    obtain ⟨outbox, wrote, same⟩ := map_eq_some_iff.mp ran
    cases same
    refine ⟨_, _, stage, holds.rows, (footprint_reserveSequences wrote).trans ?_, holds.valid⟩
    rw [holds.outbox]
  | inserting profile =>
    cases script
    obtain ⟨outbox, wrote, same⟩ := map_eq_some_iff.mp ran
    cases same
    have reserved : (db.outbox.footprint id).reserved = some (streamKey profile.userID) := by rw [holds.outbox]
    refine ⟨_, _, .done profile, holds.rows, (footprint_insertBatch reserved wrote).trans ?_, holds.valid⟩
    rw [holds.outbox]
    rfl

theorem Stage.of_done (stage : Stage shardCount call (.done ()) written footprint) : ∃ profile, written = some profile ∧
    footprint = { inserted := [(streamKey profile.userID, newUserProfileUpdatedEvent profile)] } := by
  generalize script : (Script.done () : UserScript Unit) = whole at stage
  cases stage with
  | done profile => exact ⟨profile, rfl, rfl⟩
  | updating | failed | ensuring | reserving | inserting => cases script

/-- What a statement leaves: committed profiles, committed records, and the other transactions. -/
theorem exec_frame (ran : db.exec id statement = some (next, reply)) :
    (∀ userID, next.profiles.find none userID = db.profiles.find none userID) ∧
      next.outbox.history = db.outbox.history ∧
      ∀ other written footprint, other ≠ id → TxHolds db other written footprint → TxHolds next other written footprint := by
  cases statement with
  | update userID change now =>
    rcases update_eq_some ran with ⟨rfl, _⟩ | ⟨row, profiles, _, _, _, rfl, writes⟩
    · exact ⟨fun _ => rfl, rfl, fun _ _ _ _ holds => holds⟩
    · refine ⟨fun at_ => writes.find_of_ne (by simp) at_, rfl, fun other written footprint ne holds => ?_⟩
      refine ⟨fun at_ value => ?_, holds.outbox, holds.valid⟩
      rw [← holds.rows, writes.holds_iff]
      constructor
      · rintro (⟨_, same, _⟩ | ⟨_, held⟩)
        · exact (ne same).elim
        · exact held
      · intro held
        refine .inr ⟨fun same => ne (writes.free _ (same ▸ held)), held⟩
  | outbox call =>
    obtain ⟨outbox, wrote, same⟩ := map_eq_some_iff.mp ran
    cases same
    refine ⟨fun _ => rfl, history_exec wrote, fun other written footprint ne holds => ⟨holds.rows, ?_, holds.valid⟩⟩
    exact (footprint_exec_of_ne wrote ne).trans holds.outbox

theorem TxHolds.commit_of_ne (holds : TxHolds db other written footprint) (ne : other ≠ id) :
    TxHolds (db.commit id) other written footprint where
  rows userID value := by
    rw [← holds.rows]
    exact holds_commit.trans (and_iff_left ne)
  outbox := (footprint_settle_of_ne ne).trans holds.outbox
  valid := holds.valid

theorem TxHolds.rollback_of_ne (holds : TxHolds db other written footprint) (ne : other ≠ id) :
    TxHolds (db.rollback id) other written footprint where
  rows userID value := by
    rw [← holds.rows]
    exact holds_rollback.trans (and_iff_left ne)
  outbox := (footprint_rollback_of_ne ne).trans holds.outbox
  valid := holds.valid

theorem txHolds_commit (db : UserDatabase) (idle : db.outbox.reserved id = none) : TxHolds (db.commit id) id none {} where
  rows userID value := by
    simp only [reduceCtorEq, false_and, exists_false, iff_false]
    exact fun held => (holds_commit.mp held).2 rfl
  outbox := footprint_settle idle
  valid := by simp

theorem txHolds_rollback (db : UserDatabase) (id : ℕ) : TxHolds (db.rollback id) id none {} where
  rows userID value := by
    simp only [reduceCtorEq, false_and, exists_false, iff_false]
    exact fun held => (holds_rollback.mp held).2 rfl
  outbox := footprint_rollback ..
  valid := by simp

end Transactions

section Service

variable {shardCount : ℕ} {state next : UserServiceState} {event : ServiceEvent UserCall} {id : ℕ}

/-- How far a transaction is; one that is not running holds nothing. -/
def Progress (shardCount : ℕ) (state : UserServiceState) (id : ℕ) : Prop :=
  match state.running id with
  | none => TxHolds state.store id none {}
  | some task => ∃ written footprint, Stage shardCount task.request task.script written footprint ∧
      TxHolds state.store id written footprint

variable {task : Task UserCall UserStatement.Reply UserError Unit} {footprint : Tables.Footprint UserEvent}

variable {written : Option UserProfile}

theorem progress_running (current : state.running id = some task)
    (stage : Stage shardCount task.request task.script written footprint) (holds : TxHolds state.store id written footprint) :
    Progress shardCount state id := by
  rw [Progress, current]
  exact ⟨written, footprint, stage, holds⟩

theorem progress_idle (idle : state.running id = none) : Progress shardCount state id ↔ TxHolds state.store id none {} := by
  rw [Progress, idle]

theorem Progress.of_running (progress : Progress shardCount state id)
    (current : state.running id = some task) : ∃ written footprint,
      Stage shardCount task.request task.script written footprint ∧ TxHolds state.store id written footprint := by
  rwa [Progress, current] at progress

/-- A transaction that has not moved keeps its progress if it holds what it has held. -/
theorem Progress.of_same (progress : Progress shardCount state id) (same : next.running id = state.running id)
    (kept : ∀ written footprint, TxHolds state.store id written footprint → TxHolds next.store id written footprint) :
    Progress shardCount next id := by
  unfold Progress at progress ⊢
  rw [same]
  split at progress
  · exact kept _ _ progress
  · obtain ⟨written, footprint, stage, holds⟩ := progress
    exact ⟨written, footprint, stage, kept _ _ holds⟩

/-- What the database and the running transactions have. A row that is being changed exists, and its new time is
not earlier. -/
structure Ordered (shardCount : ℕ) (state : UserServiceState) : Prop where
  listed : Service.Listed state
  progress : ∀ id, Progress shardCount state id
  sound : state.store.outbox.Sound
  held : ∀ id userID profile, state.store.profiles.Holds id userID (some profile) →
    ∃ row, state.store.profiles.find none userID = some row ∧ row.updatedAt ≤ profile.updatedAt

/-- A transaction that can commit has written one row and its event. -/
theorem Ordered.of_done (ordered : Ordered shardCount state) {request : UserCall} {log : Log UserStatement.Reply}
    (current : state.running id = some ⟨request, log, .done ()⟩) :
    ∃ profile, TxHolds state.store id (some profile)
      { inserted := [(streamKey profile.userID, newUserProfileUpdatedEvent profile)] } := by
  obtain ⟨written, footprint, stage, holds⟩ := (ordered.progress id).of_running current
  obtain ⟨profile, rfl, rfl⟩ := stage.of_done
  exact ⟨profile, holds⟩

theorem TxHolds.reserved_eq_none {db : UserDatabase}
    (holds : TxHolds db id written footprint) (unused : footprint.reserved = none) : db.outbox.reserved id = none := by
  rw [← holds.outbox] at unused
  exact map_eq_none_iff.mp unused

theorem progress_step (ordered : Ordered shardCount state) (step : (userService shardCount).machine.step state event = some next)
    (id : ℕ) : Progress shardCount next id := by
  have progress := ordered.progress id
  cases transition_step step with
  | @begin new request fresh =>
    by_cases mine : id = new
    · subst mine
      have idle : state.running id = none := by
        cases current : state.running id with
        | none => rfl
        | some task => exact (fresh (ordered.listed _ _ current)).elim
      exact progress_running (set_self ..) (stage_script shardCount request) ((progress_idle idle).mp progress)
    · exact progress.of_same (set_of_ne _ mine _) fun _ _ holds => holds
  | @exec tx request log statement rest store reply current ran =>
    by_cases mine : id = tx
    · subst mine
      obtain ⟨written, footprint, stage, holds⟩ := progress.of_running current
      obtain ⟨_, _, stage, holds⟩ := stage.exec holds ran
      exact progress_running (set_self ..) stage holds
    · exact progress.of_same (set_of_ne _ mine _) fun written footprint => (exec_frame ran).2.2 id written footprint mine
  | @commit tx request log value current =>
    by_cases mine : id = tx
    · subst mine
      obtain ⟨profile, holds⟩ := ordered.of_done current
      exact (progress_idle (drop_self ..)).mpr (txHolds_commit _ (holds.reserved_eq_none rfl))
    · exact progress.of_same (drop_of_ne _ mine) fun _ _ holds => holds.commit_of_ne mine
  | @rollback tx task current =>
    by_cases mine : id = tx
    · subst mine
      exact (progress_idle (drop_self ..)).mpr (txHolds_rollback ..)
    · exact progress.of_same (drop_of_ne _ mine) fun _ _ holds => holds.rollback_of_ne mine

/-- The rows that are being changed stay in order when every update is in time. -/
theorem held_step (ordered : Ordered shardCount state) (inTime : ∀ id, event = .exec id → RunsInTime state id)
    (step : (userService shardCount).machine.step state event = some next) (id : ℕ) (userID : ℤ) (profile : UserProfile)
    (held : next.store.profiles.Holds id userID (some profile)) :
    ∃ row, next.store.profiles.find none userID = some row ∧ row.updatedAt ≤ profile.updatedAt := by
  cases transition_step step with
  | begin fresh => exact ordered.held id userID profile held
  | @exec tx request log statement rest store reply current ran =>
    have inTime := inTime tx rfl _ current statement rfl
    cases statement with
    | outbox call =>
      obtain ⟨outbox, _, same⟩ := map_eq_some_iff.mp ran
      cases same
      exact ordered.held id userID profile held
    | update changed change now =>
      rcases update_eq_some ran with ⟨rfl, _⟩ | ⟨row, profiles, found, _, _, rfl, writes⟩
      · exact ordered.held id userID profile held
      · simp only [writes.find_of_ne (some_ne_none tx).symm]
        rcases writes.holds_iff.mp held with ⟨rfl, _, version⟩ | ⟨_, old⟩
        · cases version
          -- The transaction reads the committed row, or has changed it before.
          obtain ⟨committed, stored⟩ : ∃ committed, state.store.profiles.find none userID = some committed := by
            rcases state.store.profiles.find_cases tx userID with ⟨value, own, read⟩ | ⟨_, read⟩
            · rw [← read, found] at own
              obtain ⟨committed, stored, _⟩ := ordered.held tx userID row own
              exact ⟨committed, stored⟩
            · exact ⟨row, read ▸ found⟩
          exact ⟨committed, stored, (updatedAt_apply ..).symm ▸ inTime committed stored⟩
        · exact ordered.held id userID profile old
  | @commit tx request log value current =>
    obtain ⟨old, ne⟩ := holds_commit.mp held
    have free (value : Option UserProfile) : ¬ state.store.profiles.Holds tx userID value := fun own => ne (own.unique old).1
    obtain ⟨row, stored, order⟩ := ordered.held id userID profile old
    exact ⟨row, (find_of_not_holds free).trans stored, order⟩
  | rollback current => exact ordered.held id userID profile (holds_rollback.mp held).1

theorem Ordered.step (ordered : Ordered shardCount state) (inTime : ∀ id, event = .exec id → RunsInTime state id)
    (step : (userService shardCount).machine.step state event = some next) : Ordered shardCount next where
  listed := listed_step ordered.listed step
  progress := progress_step ordered step
  held := held_step ordered inTime step
  sound := by
    cases transition_step step with
    | begin fresh => exact ordered.sound
    | @exec tx request log statement rest store reply current ran =>
      cases statement with
      | outbox call =>
        obtain ⟨outbox, wrote, same⟩ := map_eq_some_iff.mp ran
        cases same
        exact ordered.sound.exec wrote
      | update changed change now =>
        rcases update_eq_some ran with ⟨rfl, _⟩ | ⟨_, _, _, _, _, rfl, _⟩
        · exact ordered.sound
        · exact ordered.sound
    | commit current =>
      obtain ⟨profile, holds⟩ := ordered.of_done current
      exact ordered.sound.settle (holds.reserved_eq_none rfl)
    | rollback current => exact ordered.sound.rollback _

/-- What a step does to the committed profiles and records: nothing, or it publishes one profile. -/
inductive Publishes (before after : UserDatabase) : Prop where
  | nothing (rows : ∀ userID, after.profiles.find none userID = before.profiles.find none userID)
      (history : after.outbox.history = before.outbox.history)
  | profile (old new : UserProfile) (record : Record UserEvent)
      (valid : Publishable new) (stored : before.profiles.find none new.userID = some old)
      (order : old.updatedAt ≤ new.updatedAt) (inStream : record.streamKey = streamKey new.userID)
      (event : record.body = newUserProfileUpdatedEvent new)
      (updated : after.profiles.find none new.userID = some new)
      (rows : ∀ userID, userID ≠ new.userID → after.profiles.find none userID = before.profiles.find none userID)
      (history : after.outbox.history = before.outbox.history ++ [record])

theorem publishes_commit (ordered : Ordered shardCount state) {profile : UserProfile}
    (holds : TxHolds state.store id (some profile)
      { inserted := [(streamKey profile.userID, newUserProfileUpdatedEvent profile)] }) :
    Publishes state.store (state.store.commit id) := by
  have own : state.store.profiles.Holds id profile.userID (some profile) := (holds.rows _ _).mpr ⟨profile, rfl, rfl, rfl⟩
  obtain ⟨old, stored, order⟩ := ordered.held id profile.userID profile own
  have inserted : (state.store.outbox.inserted id).map (fun record => (record.streamKey, record.body)) =
      [(streamKey profile.userID, newUserProfileUpdatedEvent profile)] := congrArg Footprint.inserted holds.outbox
  obtain ⟨record, records, same⟩ := List.map_eq_singleton_iff.mp inserted
  obtain ⟨inStream, event⟩ := Prod.mk.inj same
  refine .profile old profile record (holds.valid profile rfl) stored order inStream event (find_of_holds own) ?_ ?_
  · intro userID ne
    refine find_of_not_holds fun value held => ?_
    obtain ⟨_, written, _, same⟩ := (holds.rows _ _).mp held
    cases written
    exact ne same
  · exact (history_settle ..).trans (by rw [records])

theorem publishes_step (ordered : Ordered shardCount state)
    (step : (userService shardCount).machine.step state event = some next) : Publishes state.store next.store := by
  cases transition_step step with
  | begin fresh | rollback current => exact .nothing (fun _ => rfl) rfl
  | exec current ran =>
    obtain ⟨rows, history, _⟩ := exec_frame ran
    exact .nothing rows history
  | commit current =>
    obtain ⟨profile, holds⟩ := ordered.of_done current
    exact publishes_commit ordered holds

end Service

end Cordis.User
