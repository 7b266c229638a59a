import Cordis.Session.State
import Mathlib.Data.List.Sort

/-! # Channel visibility snapshots

A node keeps, for every user with a local session, one entry per guild: the channels the user may
see, labelled with the access revision they reflect. Invalidation raises the required revision and
the generation of an entry and clears its snapshot; a reload reads both, asks Guild for a
candidate, and installs it if the generation has not moved.

Every function here is what the source does under `visibilityMu`, or the validation of a Guild
response. The two loaders accept only positive revisions and strictly increasing channel ids, so a
snapshot carries both facts. A reload is a procedure of three sections; `ReloadPhase` is its
program counter, shared by every way the code runs it.
-/

namespace Cordis.Session

open Function List Option

def strictlyIncreasingPositive : List ℤ → Bool
  | [] => true
  | [id] => decide (0 < id)
  | id :: next :: rest =>
      decide (0 < id) && decide (id < next) && strictlyIncreasingPositive (next :: rest)

structure VisibilitySnapshot where
  accessRevision : ℤ
  channelIDs : List ℤ
  positive : 0 < accessRevision
  increasing : strictlyIncreasingPositive channelIDs = true
deriving DecidableEq, Repr

/-- Binary search in an increasing list finds exactly its members. -/
def VisibilitySnapshot.contains (snapshot : VisibilitySnapshot) (channelID : ℤ) : Bool :=
  decide (channelID ∈ snapshot.channelIDs)

structure VisibilityEntry where
  snapshot : Option VisibilitySnapshot := none
  requiredRevision : ℤ := 0
  generation : ℕ := 0
  reconcileSent : Bool := false
deriving DecidableEq, Repr

structure UserVisibilityState where
  references : ℕ := 0
  snapshots : ℤ → Option VisibilityEntry := fun _ => none

/-- `visibilityUsers`: the visibility state of each user that has one. -/
abbrev VisibilityUsers := ℤ → Option UserVisibilityState

structure ReadyChannel where
  id : ℤ
  guildID : ℤ
deriving DecidableEq, Repr

/-- What READY needs to know of one guild. -/
structure ReadyGuild where
  guildID : ℤ
  accessRevision : ℤ
  channels : List ReadyChannel
deriving DecidableEq, Repr

/-- One guild of the READY response, given the snapshots accepted before it. -/
def readyGuildSnapshot (cfg : NodeConfig) (accepted : List (ℤ × VisibilitySnapshot))
    (ready : ReadyGuild) : Except Status (List (ℤ × VisibilitySnapshot)) :=
  if revision : ready.guildID ≤ 0 ∨ ready.accessRevision ≤ 0 then
    .error ⟨.internal, "guild ready state is invalid"⟩
  else if ready.channels.any fun channel =>
      decide (channel.id ≤ 0) || decide (channel.guildID ≠ ready.guildID) then
    .error ⟨.internal, "guild ready channel is invalid"⟩
  else if ready.channels.length > cfg.visibilityChannelLimit then
    .error ⟨.resourceExhausted, "guild visibility channel limit exceeded"⟩
  else
    let channelIDs := (ready.channels.map ReadyChannel.id).insertionSort (· ≤ ·)
    if increasing : strictlyIncreasingPositive channelIDs = true then
      if accepted.any fun pair => decide (pair.1 = ready.guildID) then
        .error ⟨.internal, "guild ready state contains duplicate guild"⟩
      else
        .ok (accepted ++ [(ready.guildID,
          ⟨ready.accessRevision, channelIDs, by omega, increasing⟩)])
    else .error ⟨.internal, "guild ready channel ids are invalid"⟩

/-- The snapshots of a READY response, or the first thing wrong with it. -/
def loadReadyGuilds (cfg : NodeConfig) (response : Except Status (List ReadyGuild)) :
    Except Status (List (ℤ × VisibilitySnapshot)) := do
  let readyGuilds ← response
  if readyGuilds.length > cfg.visibilityGuildLimit then
    .error ⟨.resourceExhausted, "guild visibility limit exceeded"⟩
  else readyGuilds.foldlM (readyGuildSnapshot cfg) []

structure GuildChannelVisibility where
  guildID : ℤ
  accessRevision : ℤ
  visibleChannelIDs : List ℤ
deriving DecidableEq, Repr

/-- Validate the answer of the single-guild visibility call. -/
def loadSingleVisibilitySnapshot (cfg : NodeConfig) (guildID : ℤ)
    (response : Except Status (Option GuildChannelVisibility)) : Except Status VisibilitySnapshot :=
  match response with
  | .error status => .error status
  | .ok none => .error ⟨.internal, "guild visibility response is invalid"⟩
  | .ok (some v) =>
    if revision : v.guildID ≠ guildID ∨ v.accessRevision ≤ 0 then
      .error ⟨.internal, "guild visibility response is invalid"⟩
    else if channels : v.visibleChannelIDs.length > cfg.visibilityChannelLimit ∨
        strictlyIncreasingPositive v.visibleChannelIDs ≠ true then
      .error ⟨.internal, "guild visibility channel ids are invalid"⟩
    else
      .ok ⟨v.accessRevision, v.visibleChannelIDs, by omega, by
        simpa only [not_or, not_not] using (not_or.mp channels).2⟩

/-- What a newly identified session's snapshot does to the entry of its guild. -/
def retainEntry (entry : Option VisibilityEntry) (snapshot : VisibilitySnapshot) : VisibilityEntry :=
  match entry with
  | none => { snapshot := some snapshot }
  | some entry =>
    if snapshot.accessRevision ≥ entry.requiredRevision ∧
        ∀ stored ∈ entry.snapshot, snapshot.accessRevision > stored.accessRevision then
      { entry with snapshot := some snapshot, reconcileSent := false }
    else entry

variable (users : VisibilityUsers) (userID guildID : ℤ)

def retainVisibilitySnapshots (snapshots : List (ℤ × VisibilitySnapshot)) : VisibilityUsers :=
  let state := (users userID).getD {}
  Function.update users userID <| some
    { references := state.references + 1
      snapshots := fun guildID =>
        match snapshots.lookup guildID with
        | none => state.snapshots guildID
        | some snapshot => some (retainEntry (state.snapshots guildID) snapshot) }

def releaseVisibilitySnapshots : VisibilityUsers :=
  match users userID with
  | none => users
  | some state =>
    if state.references ≤ 1 then Function.update users userID none
    else Function.update users userID (some { state with references := state.references - 1 })

/-- Clear an entry, or leave it alone when it already satisfies the revision or already waits for
it. A revision of zero or less comes from events that carry none and always clears. -/
def invalidateEntry (entry : VisibilityEntry) (accessRevision : ℤ) : VisibilityEntry × Bool :=
  if accessRevision > 0 then
    if ∃ stored ∈ entry.snapshot, stored.accessRevision ≥ accessRevision then (entry, false)
    else if accessRevision ≤ entry.requiredRevision ∧ entry.snapshot = none then (entry, false)
    else
      ({ snapshot := none
         requiredRevision := max entry.requiredRevision accessRevision
         generation := entry.generation + 1
         reconcileSent := false }, true)
  else
    ({ snapshot := none
       requiredRevision := entry.requiredRevision
       generation := entry.generation + 1
       reconcileSent := false }, true)

/-- Write one entry of a user's state. -/
def putEntry (state : UserVisibilityState) (entry : Option VisibilityEntry) : VisibilityUsers :=
  Function.update users userID
    (some { state with snapshots := Function.update state.snapshots guildID entry })

def invalidateVisibilityGuild (accessRevision : ℤ) : VisibilityUsers × Bool :=
  match users userID with
  | none => (users, false)
  | some state =>
    let changed := invalidateEntry ((state.snapshots guildID).getD {}) accessRevision
    (putEntry users userID guildID state (some changed.1), changed.2)

def removeVisibilityGuild : VisibilityUsers :=
  match users userID with
  | none => users
  | some state => putEntry users userID guildID state none

/-- The entry of a user and guild, if both exist. -/
def entryFor : Option VisibilityEntry :=
  (users userID).bind fun state => state.snapshots guildID

def visibilitySnapshotFor : Option VisibilitySnapshot :=
  (entryFor users userID guildID).bind VisibilityEntry.snapshot

/-- The generation and the required revision a reload has to meet. -/
def visibilityReloadTarget : Option (ℕ × ℤ) :=
  match users userID with
  | none => none
  | some state =>
    if state.references = 0 then none
    else (state.snapshots guildID).map fun entry => (entry.generation, entry.requiredRevision)

def installReloadedVisibilitySnapshot (generation : ℕ) (snapshot : VisibilitySnapshot) : VisibilityUsers × Bool :=
  match users userID with
  | none => (users, false)
  | some state =>
    if state.references = 0 then (users, false)
    else
      match state.snapshots guildID with
      | none => (users, false)
      | some entry =>
        if entry.generation ≠ generation ∨ snapshot.accessRevision < entry.requiredRevision then
          (users, false)
        else
          (putEntry users userID guildID state
            (some { entry with snapshot := some snapshot, reconcileSent := false }), true)

def markVisibilityReconcile : VisibilityUsers × Bool :=
  match users userID with
  | none => (users, false)
  | some state =>
    match state.snapshots guildID with
    | none => (users, false)
    | some entry =>
      if entry.snapshot.isSome || entry.reconcileSent then (users, false)
      else (putEntry users userID guildID state (some { entry with reconcileSent := true }), true)

/-- Where `reloadVisibilitySnapshot` stands; `attempt` counts the finished rounds of its loop. -/
inductive ReloadPhase where
  | target (attempt : ℕ)
  | load (attempt generation : ℕ) (requiredRevision : ℤ)
  | install (attempt generation : ℕ) (candidate : VisibilitySnapshot)
  | returned (result : Except Status VisibilitySnapshot)
deriving Repr

/-- The loop makes two rounds. -/
def reloadRounds : ℕ := 2

/-- Read the target of the next round. -/
def reloadTarget (attempt : ℕ) : ReloadPhase :=
  match visibilityReloadTarget users userID guildID with
  | none => .returned (.error ⟨.failedPrecondition, "guild visibility snapshot is not retained"⟩)
  | some (generation, requiredRevision) => .load attempt generation requiredRevision

/-- Receive the candidate and reject one that is older than the target requires. -/
def reloadLoad (cfg : NodeConfig) (guildID : ℤ) (attempt generation : ℕ) (requiredRevision : ℤ)
    (response : Except Status (Option GuildChannelVisibility)) : ReloadPhase :=
  match loadSingleVisibilitySnapshot cfg guildID response with
  | .error status => .returned (.error status)
  | .ok candidate =>
    if candidate.accessRevision < requiredRevision then
      .returned (.error ⟨.aborted, "guild visibility revision is stale"⟩)
    else .install attempt generation candidate

/-- Install the candidate; when the entry has moved on, give up or start another round. -/
def reloadInstall (attempt generation : ℕ)
    (candidate : VisibilitySnapshot) (ctxErr : Option Status) : VisibilityUsers × ReloadPhase :=
  let installed := installReloadedVisibilitySnapshot users userID guildID generation candidate
  if installed.2 then (installed.1, .returned (.ok candidate))
  else
    match ctxErr with
    | some status => (installed.1, .returned (.error status))
    | none =>
      if attempt + 1 < reloadRounds then (installed.1, .target (attempt + 1))
      else (installed.1, .returned (.error ⟨.aborted, "guild visibility changed during reload"⟩))

/-! ## What each operation does to one entry -/

variable {users userID guildID}

@[simp] theorem entryFor_putEntry (users : VisibilityUsers) (userID guildID : ℤ)
    (state : UserVisibilityState) (entry : Option VisibilityEntry) :
    entryFor (putEntry users userID guildID state entry) userID guildID = entry := by
  simp [entryFor, putEntry]

variable {user guild : ℤ} {snapshot : VisibilitySnapshot} {cfg : NodeConfig} {state : UserVisibilityState}

theorem entryFor_putEntry_of_ne (known : users userID = some state)
    (entry : Option VisibilityEntry) (other : ¬ (user = userID ∧ guild = guildID)) :
    entryFor (putEntry users userID guildID state entry) user guild = entryFor users user guild := by
  simp only [entryFor, putEntry]
  by_cases sameUser : user = userID
  · subst sameUser
    have otherGuild : guild ≠ guildID := fun same => other ⟨rfl, same⟩
    simp [known, update_of_ne otherGuild]
  · rw [update_of_ne sameUser]

theorem entryFor_retain (users : VisibilityUsers) (userID : ℤ)
    (snapshots : List (ℤ × VisibilitySnapshot)) (guild : ℤ) :
    entryFor (retainVisibilitySnapshots users userID snapshots) userID guild =
      match snapshots.lookup guild with
      | none => entryFor users userID guild
      | some snapshot => some (retainEntry (entryFor users userID guild) snapshot) := by
  simp only [entryFor, retainVisibilitySnapshots, update_self, bind_some]
  cases users userID <;> rfl

theorem entryFor_retain_of_ne (users : VisibilityUsers) {userID : ℤ} (other : user ≠ userID)
    (snapshots : List (ℤ × VisibilitySnapshot)) (guild : ℤ) :
    entryFor (retainVisibilitySnapshots users userID snapshots) user guild = entryFor users user guild := by
  simp only [entryFor, retainVisibilitySnapshots, update_of_ne other]

/-- A release drops all entries of the user or none. -/
theorem entryFor_release (users : VisibilityUsers) (userID user guild : ℤ) :
    entryFor (releaseVisibilitySnapshots users userID) user guild = entryFor users user guild ∨
      (user = userID ∧ (∀ state ∈ users user, state.references ≤ 1) ∧
        entryFor (releaseVisibilitySnapshots users userID) user guild = none) := by
  cases known : users userID with
  | none => left; simp only [releaseVisibilitySnapshots, known]
  | some state =>
    by_cases sameUser : user = userID
    · subst sameUser
      by_cases last : state.references ≤ 1
      · right
        simp [releaseVisibilitySnapshots, known, last, entryFor]
      · left
        simp [releaseVisibilitySnapshots, known, last, entryFor]
    · left
      simp only [releaseVisibilitySnapshots, known]
      split_ifs <;> simp only [entryFor, update_of_ne sameUser]

theorem entryFor_invalidate (known : users userID = some state) (guildID accessRevision : ℤ) :
    entryFor (invalidateVisibilityGuild users userID guildID accessRevision).1 userID guildID =
      some (invalidateEntry ((entryFor users userID guildID).getD {}) accessRevision).1 := by
  simp only [invalidateVisibilityGuild, known, entryFor_putEntry]
  simp [entryFor, known]

theorem entryFor_invalidate_of_ne (users : VisibilityUsers) {userID guildID : ℤ}
    (other : ¬ (user = userID ∧ guild = guildID)) (accessRevision : ℤ) :
    entryFor (invalidateVisibilityGuild users userID guildID accessRevision).1 user guild =
      entryFor users user guild := by
  cases known : users userID with
  | none => simp only [invalidateVisibilityGuild, known]
  | some state =>
    simp only [invalidateVisibilityGuild, known]
    exact entryFor_putEntry_of_ne known _ other

variable (users userID guildID)

theorem entryFor_remove_of_ne {userID guildID : ℤ} (other : ¬ (user = userID ∧ guild = guildID)) :
    entryFor (removeVisibilityGuild users userID guildID) user guild = entryFor users user guild := by
  cases known : users userID with
  | none => simp only [removeVisibilityGuild, known]
  | some state =>
    simp only [removeVisibilityGuild, known]
    exact entryFor_putEntry_of_ne known _ other

theorem entryFor_remove : entryFor (removeVisibilityGuild users userID guildID) userID guildID = none := by
  cases known : users userID with
  | none => simp [removeVisibilityGuild, known, entryFor]
  | some state => simp only [removeVisibilityGuild, known, entryFor_putEntry]

/-- Installation either refuses and changes nothing, or finds the entry at the generation the
reload started from, no newer revision required, and replaces its snapshot. -/
theorem install_cases (generation : ℕ) (snapshot : VisibilitySnapshot) :
    installReloadedVisibilitySnapshot users userID guildID generation snapshot = (users, false) ∨
      ∃ state entry, users userID = some state ∧ state.snapshots guildID = some entry ∧
        entry.generation = generation ∧ entry.requiredRevision ≤ snapshot.accessRevision ∧
        installReloadedVisibilitySnapshot users userID guildID generation snapshot =
          (putEntry users userID guildID state
            (some { entry with snapshot := some snapshot, reconcileSent := false }), true) := by
  cases known : users userID with
  | none => left; simp only [installReloadedVisibilitySnapshot, known]
  | some state =>
    by_cases unused : state.references = 0
    · left; simp only [installReloadedVisibilitySnapshot, known, unused, ↓reduceIte]
    · cases present : state.snapshots guildID with
      | none => left; simp only [installReloadedVisibilitySnapshot, known, unused, present, ↓reduceIte]
      | some entry =>
        by_cases moved : entry.generation ≠ generation ∨
            snapshot.accessRevision < entry.requiredRevision
        · left
          simp only [installReloadedVisibilitySnapshot, known, unused, present, moved, ↓reduceIte]
        · right
          obtain ⟨same, enough⟩ := not_or.mp moved
          refine ⟨state, entry, rfl, present, not_not.mp same, not_lt.mp enough, ?_⟩
          simp only [installReloadedVisibilitySnapshot, known, unused, present, moved, ↓reduceIte]

theorem reloadInstall_users (attempt generation : ℕ) (candidate : VisibilitySnapshot) (ctxErr : Option Status) :
    (reloadInstall users userID guildID attempt generation candidate ctxErr).1 =
      (installReloadedVisibilitySnapshot users userID guildID generation candidate).1 := by
  cases ctxErr <;> simp only [reloadInstall] <;> split_ifs <;> rfl

/-- Marking an entry touches only its flag. -/
theorem entryFor_mark (user guild : ℤ) :
    entryFor (markVisibilityReconcile users userID guildID).1 user guild = entryFor users user guild ∨
      ∃ entry, entryFor users user guild = some entry ∧
        entryFor (markVisibilityReconcile users userID guildID).1 user guild =
          some { entry with reconcileSent := true } := by
  cases known : users userID with
  | none => left; simp only [markVisibilityReconcile, known]
  | some state =>
    cases present : state.snapshots guildID with
    | none => left; simp only [markVisibilityReconcile, known, present]
    | some entry =>
      by_cases done : (entry.snapshot.isSome || entry.reconcileSent) = true
      · left; simp only [markVisibilityReconcile, known, present, done, ↓reduceIte]
      · simp only [markVisibilityReconcile, known, present, done, Bool.false_eq_true, ↓reduceIte]
        by_cases same : user = userID ∧ guild = guildID
        · obtain ⟨rfl, rfl⟩ := same
          right
          refine ⟨entry, ?_, entryFor_putEntry ..⟩
          simp [entryFor, known, present]
        · left
          exact entryFor_putEntry_of_ne known _ same

variable {users userID guildID} {accessRevision : ℤ}

theorem invalidateEntry_snapshot {entry : VisibilityEntry}
    (stored : (invalidateEntry entry accessRevision).1.snapshot = some snapshot) :
    entry.snapshot = some snapshot := by
  unfold invalidateEntry at stored
  split_ifs at stored
  · exact stored
  · exact stored

/-- Invalidation stores nothing new. -/
theorem visibilitySnapshotFor_invalidate
    (stored : visibilitySnapshotFor (invalidateVisibilityGuild users user guild accessRevision).1
      userID guildID = some snapshot) : visibilitySnapshotFor users userID guildID = some snapshot := by
  by_cases same : userID = user ∧ guildID = guild
  · obtain ⟨rfl, rfl⟩ := same
    cases known : users userID with
    | none => simpa only [invalidateVisibilityGuild, known] using stored
    | some state =>
      rw [visibilitySnapshotFor, entryFor_invalidate known, bind_some] at stored
      have kept := invalidateEntry_snapshot stored
      cases found : entryFor users userID guildID with
      | none =>
        rw [found] at kept
        cases kept
      | some entry => rwa [visibilitySnapshotFor, found, bind_some, ← getD_some (a := entry), ← found]
  · rwa [visibilitySnapshotFor, entryFor_invalidate_of_ne _ same] at stored

/-! ## What a loaded snapshot reflects -/

variable {accepted result : List (ℤ × VisibilitySnapshot)} {pair : ℤ × VisibilitySnapshot}

theorem readyGuildSnapshot_mem
    {ready : ReadyGuild} (loaded : readyGuildSnapshot cfg accepted ready = .ok result)
    (member : pair ∈ result) :
    pair ∈ accepted ∨ (ready.guildID = pair.1 ∧ ready.accessRevision = pair.2.accessRevision) := by
  simp only [readyGuildSnapshot] at loaded
  split_ifs at loaded
  cases loaded
  rcases mem_append.mp member with before | added
  · exact .inl before
  · cases mem_singleton.mp added
    exact .inr ⟨rfl, rfl⟩

theorem foldlM_readyGuildSnapshot_mem {readyGuilds : List ReadyGuild}
    (loaded : readyGuilds.foldlM (readyGuildSnapshot cfg) accepted = .ok result)
    (member : pair ∈ result) :
    pair ∈ accepted ∨
      ∃ ready ∈ readyGuilds, ready.guildID = pair.1 ∧ ready.accessRevision = pair.2.accessRevision := by
  induction readyGuilds generalizing accepted with
  | nil =>
    cases loaded
    exact .inl member
  | cons ready rest ih =>
    rw [foldlM_cons] at loaded
    cases first : readyGuildSnapshot cfg accepted ready with
    | error status =>
      rw [first] at loaded
      cases loaded
    | ok middle =>
      rw [first] at loaded
      rcases ih loaded with known | ⟨other, listed, same⟩
      · rcases readyGuildSnapshot_mem first known with before | same
        · exact .inl before
        · exact .inr ⟨ready, mem_cons_self, same⟩
      · exact .inr ⟨other, mem_cons_of_mem _ listed, same⟩

/-- Every accepted snapshot has the revision of the guild it was loaded for. -/
theorem loadReadyGuilds_lookup {response : Except Status (List ReadyGuild)}
    {snapshots : List (ℤ × VisibilitySnapshot)} (loaded : loadReadyGuilds cfg response = .ok snapshots)
    {guildID : ℤ} (found : snapshots.lookup guildID = some snapshot) :
    ∃ ready ∈ response.toOption.getD [], ready.guildID = guildID ∧
      ready.accessRevision = snapshot.accessRevision := by
  have member : (guildID, snapshot) ∈ snapshots := by
    obtain ⟨before, after, rfl, _⟩ := lookup_eq_some_iff.mp found
    simp
  cases response with
  | error status => cases loaded
  | ok readyGuilds =>
    simp only [loadReadyGuilds, bind, Except.bind] at loaded
    split_ifs at loaded
    rcases foldlM_readyGuildSnapshot_mem loaded member with none | ⟨ready, listed, same⟩
    · cases none
    · exact ⟨ready, listed, same⟩

end Cordis.Session
