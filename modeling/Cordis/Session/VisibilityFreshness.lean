import Cordis.Machine.Run
import Cordis.Machine.Pool
import Cordis.Session.Visibility

/-! # When a stored snapshot reflects the invalidations before it

The machine interleaves the critical sections on the visibility state: identifying sessions retain
their snapshots, events invalidate, and any number of reloads run their three sections.

An entry promises its *floor*: the larger of the revision it requires and the revision of the
snapshot it stores. An invalidation at `r` brings the floor to `r` or finds it there. Two steps can
lower it afterwards. A reload whose candidate is older than a snapshot retained meanwhile replaces
that snapshot, because installation compares generations and the required revision but not the
stored snapshot; and an invalidation without a revision clears a snapshot whose revision was never
recorded as required. Without those two steps the floor never falls.
-/

namespace Cordis.Session

open Option

/-- A running `reloadVisibilitySnapshot` call. -/
structure Reload where
  userID : ℤ
  guildID : ℤ
  phase : ReloadPhase

structure VisibilityNode where
  users : VisibilityUsers := fun _ => none
  reloads : Pool ℕ Reload := Pool.empty

inductive VisibilityEvent where
  | retain (userID : ℤ) (snapshots : List (ℤ × VisibilitySnapshot))
  | release (userID : ℤ)
  | invalidate (userID guildID accessRevision : ℤ)
  | removeGuild (userID guildID : ℤ)
  | markReconcile (userID guildID : ℤ)
  | reloadBegin (thread : ℕ) (userID guildID : ℤ)
  | reloadTarget (thread : ℕ)
  | reloadLoad (thread : ℕ) (response : Except Status (Option GuildChannelVisibility))
  | reloadInstall (thread : ℕ) (ctxErr : Option Status)

/-- The generation and candidate a reload is about to install. -/
def ReloadPhase.installing : ReloadPhase → Option (ℕ × VisibilitySnapshot)
  | .install _ generation candidate => some (generation, candidate)
  | _ => none

namespace VisibilityNode

variable (userID guildID revision : ℤ) (node : VisibilityNode) (event : VisibilityEvent)

/-- Move one reload to its next phase. -/
def setReload (thread : ℕ) (reload : Reload) (phase : ReloadPhase) : VisibilityNode :=
  { node with reloads := node.reloads.set thread { reload with phase } }

def step (cfg : NodeConfig) (node : VisibilityNode) : VisibilityEvent → Option VisibilityNode
  | .retain userID snapshots =>
      some { node with users := retainVisibilitySnapshots node.users userID snapshots }
  | .release userID => some { node with users := releaseVisibilitySnapshots node.users userID }
  | .invalidate userID guildID accessRevision =>
      some { node with
        users := (invalidateVisibilityGuild node.users userID guildID accessRevision).1 }
  | .removeGuild userID guildID =>
      some { node with users := removeVisibilityGuild node.users userID guildID }
  | .markReconcile userID guildID =>
      some { node with users := (markVisibilityReconcile node.users userID guildID).1 }
  | .reloadBegin thread userID guildID =>
      match node.reloads thread with
      | some _ => none
      | none => some (node.setReload thread ⟨userID, guildID, .target 0⟩ (.target 0))
  | .reloadTarget thread =>
      match node.reloads thread with
      | some ⟨userID, guildID, .target attempt⟩ =>
          some (node.setReload thread ⟨userID, guildID, .target attempt⟩
            (Session.reloadTarget node.users userID guildID attempt))
      | _ => none
  | .reloadLoad thread response =>
      match node.reloads thread with
      | some ⟨userID, guildID, .load attempt generation requiredRevision⟩ =>
          some (node.setReload thread ⟨userID, guildID, .load attempt generation requiredRevision⟩
            (Session.reloadLoad cfg guildID attempt generation requiredRevision response))
      | _ => none
  | .reloadInstall thread ctxErr =>
      match node.reloads thread with
      | some ⟨userID, guildID, .install attempt generation candidate⟩ =>
          let result := Session.reloadInstall node.users userID guildID attempt generation candidate ctxErr
          some ({ node with users := result.1 }.setReload thread
            ⟨userID, guildID, .install attempt generation candidate⟩ result.2)
      | _ => none

/-- The step drops the entry of the user and guild. -/
def Drops : VisibilityEvent → Prop
  | .release user => user = userID ∧ ∀ state ∈ node.users user, state.references ≤ 1
  | .removeGuild user guild => user = userID ∧ guild = guildID
  | _ => False

/-- A reload whose generation is still the entry's is about to replace the stored snapshot by a
candidate with a lower revision. -/
def ReplacesNewer : VisibilityEvent → Prop
  | .reloadInstall thread _ =>
      ∃ reload ∈ node.reloads thread, ∃ install ∈ reload.phase.installing,
        (reload.userID = userID ∧ reload.guildID = guildID) ∧
        ∃ entry ∈ entryFor node.users userID guildID, entry.generation = install.1 ∧
          ∃ stored ∈ entry.snapshot, install.2.accessRevision < stored.accessRevision
  | _ => False

/-- The step clears an entry without a revision while the entry does not require `revision`. -/
def ForgetsRevision : VisibilityEvent → Prop
  | .invalidate user guild accessRevision =>
      (user = userID ∧ guild = guildID) ∧ accessRevision ≤ 0 ∧
        ∀ entry ∈ entryFor node.users user guild, entry.requiredRevision < revision
  | _ => False

instance : Decidable (node.Drops userID guildID event) := by
  cases event <;> dsimp only [Drops] <;> infer_instance

instance : Decidable (node.ReplacesNewer userID guildID event) := by
  cases event <;> dsimp only [ReplacesNewer] <;> infer_instance

instance : Decidable (node.ForgetsRevision userID guildID revision event) := by
  cases event <;> dsimp only [ForgetsRevision] <;> infer_instance

end VisibilityNode

def visibilityMachine (cfg : NodeConfig) : Machine VisibilityNode VisibilityEvent where
  step := VisibilityNode.step cfg

/-- Any stored snapshot reflects at least the revision. -/
def Fresh (users : VisibilityUsers) (userID guildID revision : ℤ) : Prop :=
  ∀ snapshot ∈ visibilitySnapshotFor users userID guildID, revision ≤ snapshot.accessRevision
deriving Decidable

/-! ## The floor of an entry -/

namespace VisibilityEntry

/-- The stored snapshot meets the required revision. -/
def Current (entry : VisibilityEntry) : Prop :=
  ∀ snapshot ∈ entry.snapshot, entry.requiredRevision ≤ snapshot.accessRevision

/-- The entry requires the revision or stores a snapshot that reflects it. -/
def Reflects (entry : VisibilityEntry) (revision : ℤ) : Prop :=
  revision ≤ entry.requiredRevision ∨ ∃ snapshot ∈ entry.snapshot, revision ≤ snapshot.accessRevision

variable {entry : VisibilityEntry}

theorem Current.retain (current : entry.Current)
    (snapshot : VisibilitySnapshot) : (retainEntry (some entry) snapshot).Current := by
  simp only [retainEntry]
  split_ifs with newer
  · rintro _ ⟨⟩
    exact newer.1
  · exact current

theorem Reflects.retain {revision : ℤ} (reflects : entry.Reflects revision)
    (snapshot : VisibilitySnapshot) : (retainEntry (some entry) snapshot).Reflects revision := by
  simp only [retainEntry]
  split_ifs with newer
  · rcases reflects with required | ⟨stored, held, reflected⟩
    · exact .inl required
    · exact .inr ⟨snapshot, rfl, reflected.trans (newer.2 stored held).le⟩
  · exact reflects

theorem Current.invalidate (current : entry.Current) (accessRevision : ℤ) :
    (invalidateEntry entry accessRevision).1.Current := by
  simp only [invalidateEntry]
  split_ifs
  · exact current
  · exact current
  · rintro _ ⟨⟩
  · rintro _ ⟨⟩

/-- An invalidation brings the entry to its revision or finds it there. -/
theorem reflects_invalidated (entry : VisibilityEntry) {revision : ℤ} (positive : 0 < revision) :
    (invalidateEntry entry revision).1.Reflects revision := by
  simp only [invalidateEntry, positive, ↓reduceIte]
  split_ifs with stored required
  · exact .inr stored
  · exact .inl required.1
  · exact .inl (le_max_right ..)

variable {entry : VisibilityEntry} {revision : ℤ} (reflects : entry.Reflects revision)

include reflects

/-- Another invalidation keeps what the entry reflects, unless it carries no revision and the entry
has not recorded the one it reflects. -/
theorem Reflects.invalidate {accessRevision : ℤ} (recorded : accessRevision ≤ 0 → revision ≤ entry.requiredRevision) :
    (invalidateEntry entry accessRevision).1.Reflects revision := by
  simp only [invalidateEntry]
  split_ifs with positive stored
  · exact reflects
  · exact reflects
  · rcases reflects with required | ⟨snapshot, held, reflected⟩
    · exact .inl (required.trans (le_max_left ..))
    · -- the stored snapshot is older than the invalidation, which therefore asks for more
      have older : snapshot.accessRevision < accessRevision :=
        not_le.mp fun newer => stored ⟨snapshot, held, newer⟩
      exact .inl ((reflected.trans older.le).trans (le_max_right ..))
  · exact .inl (recorded (not_lt.mp positive))

theorem Reflects.install {snapshot : VisibilitySnapshot}
    (notOlder : ∀ stored ∈ entry.snapshot, stored.accessRevision ≤ snapshot.accessRevision) (sent : Bool) :
    ({ entry with snapshot := some snapshot, reconcileSent := sent } : VisibilityEntry).Reflects
      revision := by
  rcases reflects with required | ⟨stored, held, reflected⟩
  · exact .inl required
  · exact .inr ⟨snapshot, rfl, reflected.trans (notOlder stored held)⟩

end VisibilityEntry

/-! ## Steps -/

/-- Every entry of the node stores only snapshots that meet its required revision. -/
def AllCurrent (users : VisibilityUsers) : Prop :=
  ∀ userID guildID, ∀ entry ∈ entryFor users userID guildID, entry.Current

namespace AllCurrent

variable {users : VisibilityUsers}

variable (current : AllCurrent users)

include current

variable (userID guildID accessRevision : ℤ)

theorem retain (snapshots : List (ℤ × VisibilitySnapshot)) :
    AllCurrent (retainVisibilitySnapshots users userID snapshots) := by
  intro user guild entry held
  by_cases same : user = userID
  · subst same
    rw [entryFor_retain] at held
    split at held
    · exact current _ _ _ held
    · cases held
      cases before : entryFor users user guild with
      | none =>
        rintro _ ⟨⟩
        exact le_of_lt (VisibilitySnapshot.positive _)
      | some entry => exact (current _ _ _ before).retain _
  · rw [entryFor_retain_of_ne users same] at held
    exact current _ _ _ held

theorem invalidate : AllCurrent (invalidateVisibilityGuild users userID guildID accessRevision).1 := by
  intro user guild entry held
  by_cases same : user = userID ∧ guild = guildID
  · obtain ⟨rfl, rfl⟩ := same
    cases known : users user with
    | none =>
      simp only [invalidateVisibilityGuild, known] at held
      exact current _ _ _ held
    | some state =>
      rw [entryFor_invalidate known] at held
      cases held
      refine VisibilityEntry.Current.invalidate ?_ _
      cases before : entryFor users user guild with
      | none => rintro _ ⟨⟩
      | some entry => exact current _ _ _ before
  · rw [entryFor_invalidate_of_ne users same] at held
    exact current _ _ _ held

theorem release : AllCurrent (releaseVisibilitySnapshots users userID) := by
  intro user guild entry held
  rcases entryFor_release users userID user guild with same | ⟨_, _, dropped⟩
  · exact current _ _ _ (same ▸ held)
  · rw [dropped] at held
    cases held

theorem remove : AllCurrent (removeVisibilityGuild users userID guildID) := by
  intro user guild entry held
  by_cases same : user = userID ∧ guild = guildID
  · obtain ⟨rfl, rfl⟩ := same
    rw [entryFor_remove] at held
    cases held
  · rw [entryFor_remove_of_ne users same] at held
    exact current _ _ _ held

theorem mark : AllCurrent (markVisibilityReconcile users userID guildID).1 := by
  intro user guild entry held
  rcases entryFor_mark users userID guildID user guild with same | ⟨before, present, marked⟩
  · exact current _ _ _ (same ▸ held)
  · rw [marked] at held
    cases held
    have was := current _ _ _ present
    exact was

theorem install (generation : ℕ) (snapshot : VisibilitySnapshot) :
    AllCurrent (installReloadedVisibilitySnapshot users userID guildID generation snapshot).1 := by
  rcases install_cases users userID guildID generation snapshot with
    refused | ⟨state, before, known, present, _, enough, installed⟩
  · rwa [refused]
  · rw [installed]
    intro user guild entry held
    by_cases same : user = userID ∧ guild = guildID
    · obtain ⟨rfl, rfl⟩ := same
      rw [entryFor_putEntry] at held
      cases held
      rintro _ ⟨⟩
      exact enough
    · rw [entryFor_putEntry_of_ne known _ same] at held
      exact current _ _ _ held

end AllCurrent

/-- The entry of the user and guild exists and reflects the revision. -/
def ReflectsAt (users : VisibilityUsers) (userID guildID revision : ℤ) : Prop :=
  ∃ entry, entryFor users userID guildID = some entry ∧ entry.Reflects revision

/-- A current entry that reflects a revision stores nothing older. -/
theorem ReflectsAt.fresh {users : VisibilityUsers} {userID guildID revision : ℤ}
    (reflects : ReflectsAt users userID guildID revision) (current : AllCurrent users) :
    Fresh users userID guildID revision := by
  obtain ⟨entry, present, required | ⟨stored, held, reflected⟩⟩ := reflects
  · intro snapshot stored
    simp only [visibilitySnapshotFor, present, bind_some] at stored
    exact required.trans (current _ _ _ present snapshot stored)
  · intro snapshot found
    simp only [visibilitySnapshotFor, present, bind_some] at found
    cases found.symm.trans held
    exact reflected

/-- The visibility state after a step, by what the step ran under the lock. -/
inductive Touches (node : VisibilityNode) : VisibilityEvent → VisibilityUsers → Prop
  | retain (userID snapshots) :
      Touches node (.retain userID snapshots) (retainVisibilitySnapshots node.users userID snapshots)
  | release (userID) : Touches node (.release userID) (releaseVisibilitySnapshots node.users userID)
  | invalidate (userID guildID accessRevision) :
      Touches node (.invalidate userID guildID accessRevision)
        (invalidateVisibilityGuild node.users userID guildID accessRevision).1
  | removeGuild (userID guildID) :
      Touches node (.removeGuild userID guildID) (removeVisibilityGuild node.users userID guildID)
  | markReconcile (userID guildID) :
      Touches node (.markReconcile userID guildID) (markVisibilityReconcile node.users userID guildID).1
  | install (thread ctxErr) (reload : Reload) (running : node.reloads thread = some reload)
      (generation candidate) (installing : reload.phase.installing = some (generation, candidate)) :
      Touches node (.reloadInstall thread ctxErr)
        (installReloadedVisibilitySnapshot node.users reload.userID reload.guildID generation candidate).1
  | quiet (event) : Touches node event node.users

variable {cfg : NodeConfig} {node next : VisibilityNode} {event : VisibilityEvent}

theorem VisibilityNode.step_touches (step : node.step cfg event = some next) :
    Touches node event next.users := by
  cases event with simp only [VisibilityNode.step] at step
  | retain => cases step; exact .retain ..
  | release => cases step; exact .release ..
  | invalidate => cases step; exact .invalidate ..
  | removeGuild => cases step; exact .removeGuild ..
  | markReconcile => cases step; exact .markReconcile ..
  | reloadBegin | reloadTarget | reloadLoad =>
    split at step <;> cases step
    exact .quiet _
  | reloadInstall thread ctxErr =>
    split at step
    · next userID guildID attempt generation candidate running =>
      cases step
      simp only [VisibilityNode.setReload, reloadInstall_users]
      exact .install thread ctxErr _ running generation candidate rfl
    · cases step

theorem AllCurrent.step (current : AllCurrent node.users) (step : node.step cfg event = some next) :
    AllCurrent next.users := by
  have touches := VisibilityNode.step_touches step
  generalize next.users = users at touches ⊢
  cases touches with
  | retain userID snapshots => exact current.retain userID snapshots
  | release userID => exact current.release userID
  | invalidate userID guildID revision => exact current.invalidate userID guildID revision
  | removeGuild userID guildID => exact current.remove userID guildID
  | markReconcile userID guildID => exact current.mark userID guildID
  | install thread ctxErr reload running generation candidate =>
    exact current.install reload.userID reload.guildID generation candidate
  | quiet => exact current

/-- A step keeps what an entry reflects unless it drops the entry, replaces a newer snapshot, or
clears an unrecorded revision. -/
theorem ReflectsAt.step {userID guildID revision : ℤ} (reflects : ReflectsAt node.users userID guildID revision)
    (kept : ¬ node.Drops userID guildID event)
    (ordered : ¬ node.ReplacesNewer userID guildID event)
    (recorded : ¬ node.ForgetsRevision userID guildID revision event)
    (step : node.step cfg event = some next) : ReflectsAt next.users userID guildID revision := by
  obtain ⟨entry, present, reflected⟩ := reflects
  have touches := VisibilityNode.step_touches step
  generalize next.users = users at touches ⊢
  cases touches with
  | retain user snapshots =>
    by_cases same : userID = user
    · subst same
      simp only [ReflectsAt, entryFor_retain, present]
      split
      · exact ⟨entry, rfl, reflected⟩
      · exact ⟨_, rfl, reflected.retain _⟩
    · exact ⟨entry, (entryFor_retain_of_ne _ same _ _).trans present, reflected⟩
  | release user =>
    rcases entryFor_release node.users user userID guildID with unchanged | ⟨rfl, last, _⟩
    · exact ⟨entry, unchanged.trans present, reflected⟩
    · exact absurd ⟨rfl, last⟩ kept
  | invalidate user guild accessRevision =>
    by_cases same : userID = user ∧ guildID = guild
    · obtain ⟨rfl, rfl⟩ := same
      obtain ⟨state, known, _⟩ := bind_eq_some_iff.mp present
      refine ⟨_, entryFor_invalidate known .., ?_⟩
      rw [present, getD_some]
      refine reflected.invalidate fun unlabelled => not_lt.mp fun unrecorded => recorded ?_
      refine ⟨⟨rfl, rfl⟩, unlabelled, fun other held => ?_⟩
      cases present.symm.trans held
      exact unrecorded
    · exact ⟨entry, (entryFor_invalidate_of_ne _ same _).trans present, reflected⟩
  | removeGuild user guild =>
    by_cases same : userID = user ∧ guildID = guild
    · exact absurd ⟨same.1.symm, same.2.symm⟩ kept
    · exact ⟨entry, (entryFor_remove_of_ne _ same).trans present, reflected⟩
  | markReconcile user guild =>
    rcases entryFor_mark node.users user guild userID guildID with unchanged | ⟨before, held, marked⟩
    · exact ⟨entry, unchanged.trans present, reflected⟩
    · cases present.symm.trans held
      exact ⟨_, marked, reflected⟩
  | install thread ctxErr reload running generation candidate installing =>
    rcases install_cases node.users reload.userID reload.guildID generation candidate with
      refused | ⟨state, before, known, stored, generationSame, _, installed⟩
    · rw [refused]
      exact ⟨entry, present, reflected⟩
    · rw [installed]
      by_cases same : userID = reload.userID ∧ guildID = reload.guildID
      · obtain ⟨rfl, rfl⟩ := same
        have held : entryFor node.users reload.userID reload.guildID = some before := by
          simp [entryFor, known, stored]
        cases present.symm.trans held
        refine ⟨_, entryFor_putEntry .., reflected.install (fun old stored => ?_) false⟩
        refine not_lt.mp fun newer => ordered ?_
        exact ⟨reload, running, _, installing, ⟨rfl, rfl⟩, entry, held, generationSame, old, stored, newer⟩
      · exact ⟨entry, (entryFor_putEntry_of_ne known _ same).trans present, reflected⟩
  | quiet => exact ⟨entry, present, reflected⟩

/-! ## Runs -/

/-- The entry is not dropped, no reload installs a candidate over a newer stored snapshot, and no
invalidation without a revision arrives before the entry requires `revision`. -/
def Orderly (userID guildID revision : ℤ) (node : VisibilityNode) (event : VisibilityEvent) : Prop :=
  ¬ node.Drops userID guildID event ∧ ¬ node.ReplacesNewer userID guildID event ∧
    ¬ node.ForgetsRevision userID guildID revision event
deriving Decidable

/-- After an invalidation at `revision` on an existing user state, and for as long as the entry is
kept and the steps are orderly, the node stores no snapshot older than `revision`. -/
theorem snapshot_fresh_after_invalidation {cfg : NodeConfig} {userID guildID revision : ℤ}
    (positive : 0 < revision) {before after : List VisibilityEvent} {node invalid final : VisibilityNode}
    (reached : (visibilityMachine cfg).run {} before = some node) (known : node.users userID ≠ none)
    (invalidated : node.step cfg (.invalidate userID guildID revision) = some invalid)
    (later : (visibilityMachine cfg).run invalid after = some final)
    (orderly : (visibilityMachine cfg).Along (Orderly userID guildID revision) invalid after) :
    Fresh final.users userID guildID revision := by
  have current : AllCurrent node.users :=
    @Machine.invariant_run _ _ _ (fun node => AllCurrent node.users) (fun _ _ _ current step => AllCurrent.step current step)
      _ _ _ reached (by rintro _ _ _ ⟨⟩)
  have established : ReflectsAt invalid.users userID guildID revision := by
    obtain ⟨state, present⟩ := Option.ne_none_iff_exists'.mp known
    cases invalidated
    exact ⟨_, entryFor_invalidate present .., VisibilityEntry.reflects_invalidated _ positive⟩
  obtain ⟨current, reflects⟩ : AllCurrent final.users ∧ ReflectsAt final.users userID guildID revision := by
    refine @Machine.invariant_along _ _ _ _
      (fun node => AllCurrent node.users ∧ ReflectsAt node.users userID guildID revision)
      (fun _ _ _ held guarded step => ?_) _ _ _ later orderly ⟨AllCurrent.step current invalidated, established⟩
    exact ⟨AllCurrent.step held.1 step, ReflectsAt.step held.2 guarded.1 guarded.2.1 guarded.2.2 step⟩
  exact reflects.fresh current

/-- A session identified at revision 7 is invalidated at 8; the reload then installs revision 8. -/
theorem reloaded_snapshot_fresh :
    ∃ node invalid final : VisibilityNode,
      (visibilityMachine {}).run {} [.retain 1001 [(30, ⟨7, [41, 42], by decide, by decide⟩)]] = some node ∧
      node.step {} (.invalidate 1001 30 8) = some invalid ∧
      (visibilityMachine {}).run invalid [.reloadBegin 0 1001 30, .reloadTarget 0,
        .reloadLoad 0 (.ok (some ⟨30, 8, [41]⟩)), .reloadInstall 0 none] = some final ∧
      (visibilitySnapshotFor final.users 1001 30).map VisibilitySnapshot.channelIDs = some [41] ∧
      Fresh final.users 1001 30 8 := by
  refine ⟨_, _, _, rfl, rfl, rfl, by decide, ?_⟩
  exact @snapshot_fresh_after_invalidation {} 1001 30 8 (by decide)
    [.retain 1001 [(30, ⟨7, [41, 42], by decide, by decide⟩)]]
    [.reloadBegin 0 1001 30, .reloadTarget 0, .reloadLoad 0 (.ok (some ⟨30, 8, [41]⟩)),
      .reloadInstall 0 none] _ _ _ rfl (by decide) rfl rfl (by decide)

/-- A reload that loaded revision 8 is overtaken by a session identified at revision 9. The
invalidation at 9 finds that snapshot and returns early, so the generation does not move, and the
reload then puts revision 8 back. -/
theorem stale_reload_replaces_newer_snapshot :
    ∃ node invalid final : VisibilityNode,
      (visibilityMachine {}).run {} [.retain 1001 [(30, ⟨7, [41, 42], by decide, by decide⟩)],
        .invalidate 1001 30 8, .reloadBegin 0 1001 30, .reloadTarget 0,
        .reloadLoad 0 (.ok (some ⟨30, 8, [41, 42]⟩)),
        .retain 1001 [(30, ⟨9, [41], by decide, by decide⟩)]] = some node ∧
      node.users 1001 ≠ none ∧
      node.step {} (.invalidate 1001 30 9) = some invalid ∧
      (visibilityMachine {}).run invalid [.reloadInstall 0 none] = some final ∧
      (visibilityMachine {}).Along (fun node event => ¬ node.Drops 1001 30 event) invalid
        [.reloadInstall 0 none] ∧
      ¬ Fresh final.users 1001 30 9 := by
  exact ⟨_, _, _, rfl, by decide, rfl, rfl, by decide, by decide⟩

end Cordis.Session
