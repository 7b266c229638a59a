import Cordis.Session.Delivery

/-! # Telling clients that a channel is gone

An event that changes who may see a channel goes to the users who can see it and to those who could
before. Who could is read from the cached snapshots just before they are invalidated. A cached
snapshot is always what Guild had when the last event was handled, but there may be none: events of
roles clear the snapshots of their users and leave the reload to whoever needs one. A user who loses
a channel is told so exactly if the snapshot was still there.

Events of one guild are handled one after another here, under the identifier 0, and every reload
returns what the user may see at the revision of the event being handled. `view` says what that is.
-/

namespace Cordis.Session

open Pool EventEnvelope Registry List Option

/-- Events of roles, of the roles of a member, of channels and of overwrites. -/
def EventType.changesAccess : EventType → Bool
  | .roleCreated | .roleUpdated | .roleDeleted | .memberRolesUpdated | .channelCreated | .channelUpdated
  | .channelDeleted | .overwriteUpdated | .overwriteDeleted => true
  | _ => false

/-- Events of one channel and its overwrites. -/
def EventType.ofChannel : EventType → Bool
  | .channelCreated | .channelUpdated | .channelDeleted | .overwriteUpdated | .overwriteDeleted => true
  | _ => false

namespace EventEnvelope

variable (event : EventEnvelope)

def kind : EventType := EventType.ofName event.type

/-- The revision of the guild's access rules after the change. -/
def revision : ℤ := (event.routing.getD {}).accessRevision

def channel : ℤ := accessChannel (event.routing.getD {})

/-- Whose visibility the event may have changed; everyone's when the id is not positive. -/
def target : ℤ :=
  match event.kind with
  | .memberRolesUpdated => (event.routing.getD {}).userID
  | type => accessTarget type (event.routing.getD {})

end EventEnvelope

/-- The revision after the last event, or the one the run begins with. -/
def lastRevision (base : ℤ) (started : List (DispatchRoute × EventEnvelope)) : ℤ :=
  started.head?.elim base fun entry => entry.2.revision

/-- The event takes the channel it is about away from the user. -/
def Revokes (view : ℤ → ℤ → List ℤ) (before : ℤ) (event : EventEnvelope) (userID : ℤ) : Prop :=
  event.kind.ofChannel = true ∧ event.channel ∈ view before userID ∧ event.channel ∉ view event.revision userID
deriving Decidable

namespace DispatchNode

variable (guildID base : ℤ) (view : ℤ → ℤ → List ℤ)

variable (node : DispatchNode) (event : DispatchEvent)

/-- The next event of the guild: its revision is not older, and it leaves the view of everyone but
its target alone. -/
def Succeeds (event : EventEnvelope) : Prop :=
  0 < event.revision ∧ lastRevision base node.started ≤ event.revision ∧
  ∀ ref ∈ node.reg.guilds.members guildID, 0 < event.target → node.reg.userOf ref ≠ event.target →
    view event.revision (node.reg.userOf ref) = view (lastRevision base node.started) (node.reg.userOf ref)
deriving Decidable

/-- A reload during a delivery returns what the user may see at the revision of the event. -/
def Reloads (userID : ℤ) (snapshot : VisibilitySnapshot) : Prop :=
  ∃ call ∈ node.calls 0, call.stages.head?.any Stage.isDeliver = true ∧
    snapshot.accessRevision = call.event.revision ∧ snapshot.channelIDs = view call.event.revision userID
deriving Decidable

/-- Events of one guild are handled one after another, and every reload succeeds. -/
def OneByOne : Prop :=
  (∀ id ∈ event.call, id = 0) ∧ event.changesSessions = false ∧
  (∀ request ∈ event.request, request.1 = .guild guildID ∧ request.2.1.routing.isSome = true ∧
    request.2.1.kind.changesAccess = true ∧
    (node.IsNew request.1 request.2.1 request.2.2 → node.Succeeds guildID base view request.2.1)) ∧
  (∀ check ∈ event.checks, check.2.isSome = true ∧
    check.2 = visibilitySnapshotFor node.users check.1 guildID) ∧
  ∀ install ∈ event.installs, install.2.1 = guildID → node.Reloads view install.1 install.2.2
deriving Decidable

/-- When an event about a channel takes it away from a user of the guild, the snapshot of that user
is still cached. -/
def Remembers : Prop :=
  ∀ request ∈ event.request, node.IsNew request.1 request.2.1 request.2.2 → ∀ ref ∈ node.reg.guilds.members guildID,
    Revokes view (lastRevision base node.started) request.2.1 (node.reg.userOf ref) →
    (visibilitySnapshotFor node.users (node.reg.userOf ref) guildID).isSome = true
deriving Decidable

end DispatchNode

/-! ## Cached snapshots -/

/-- The cached snapshot of the user, if there is one, is what the user may see at the revision. -/
def Cached (guildID : ℤ) (view : ℤ → ℤ → List ℤ) (userID : ℤ) (users : VisibilityUsers) (revision : ℤ) : Prop :=
  ∀ snapshot, visibilitySnapshotFor users userID guildID = some snapshot →
    snapshot.channelIDs = view revision userID ∧ snapshot.accessRevision ≤ revision

section Cached

variable {guildID userID revision : ℤ} {view : ℤ → ℤ → List ℤ} {users : VisibilityUsers}

variable {snapshot : VisibilitySnapshot}

/-- What survives an invalidation is at least as new as the revision. -/
theorem le_of_visibilitySnapshotFor_invalidate (positive : 0 < revision)
    (stored : visibilitySnapshotFor (invalidateVisibilityGuild users userID guildID revision).1 userID guildID =
      some snapshot) : revision ≤ snapshot.accessRevision := by
  cases known : users userID with
  | none => simp [invalidateVisibilityGuild, known, visibilitySnapshotFor, entryFor] at stored
  | some state =>
    rw [visibilitySnapshotFor, entryFor_invalidate known, bind_some] at stored
    simp only [invalidateEntry, gt_iff_lt, positive, ↓reduceIte] at stored
    split_ifs at stored with found waiting
    · obtain ⟨kept, present, enough⟩ := found
      cases present.symm.trans stored
      exact enough
    · cases waiting.2.symm.trans stored

theorem Cached.invalidate (cached : Cached guildID view userID users revision) (other accessRevision : ℤ) :
    Cached guildID view userID (invalidateVisibilityGuild users other guildID accessRevision).1 revision :=
  fun snapshot stored => cached snapshot (visibilitySnapshotFor_invalidate stored)

/-- The invalidation of an event leaves what the user may see after the event. -/
theorem Cached.invalidated {before : ℤ} (cached : Cached guildID view userID users before)
    (positive : 0 < revision) (later : before ≤ revision) :
    Cached guildID view userID (invalidateVisibilityGuild users userID guildID revision).1 revision := by
  intro snapshot stored
  have newer := le_of_visibilitySnapshotFor_invalidate positive stored
  obtain ⟨channels, older⟩ := cached snapshot (visibilitySnapshotFor_invalidate stored)
  have same : before = revision := by omega
  subst same
  exact ⟨channels, older⟩

theorem visibilitySnapshotFor_install_of_ne {other guild : ℤ} {generation : ℕ}
    (different : ¬ (other = userID ∧ guild = guildID)) :
    visibilitySnapshotFor (installReloadedVisibilitySnapshot users other guild generation snapshot).1 userID
      guildID = visibilitySnapshotFor users userID guildID := by
  rcases install_cases users other guild generation snapshot with refused | ⟨_, _, known, _, _, _, installed⟩
  · rw [refused]
  · rw [installed, visibilitySnapshotFor, entryFor_putEntry_of_ne known, visibilitySnapshotFor]
    exact fun same => different ⟨same.1.symm, same.2.symm⟩

/-- A reload of another user or guild changes nothing, and one of this user stores what it returned. -/
theorem Cached.install (cached : Cached guildID view userID users revision) {other guild : ℤ} {generation : ℕ}
    (returned : other = userID → guild = guildID →
      snapshot.channelIDs = view revision userID ∧ snapshot.accessRevision ≤ revision) :
    Cached guildID view userID
      (installReloadedVisibilitySnapshot users other guild generation snapshot).1 revision := by
  rcases install_cases users other guild generation snapshot with refused | ⟨state, entry, known, _, _, _, installed⟩
  · rw [refused]
    exact cached
  · intro found stored
    by_cases same : other = userID ∧ guild = guildID
    · obtain ⟨rfl, rfl⟩ := same
      rw [installed, visibilitySnapshotFor, entryFor_putEntry] at stored
      cases stored
      exact returned rfl rfl
    · rw [visibilitySnapshotFor_install_of_ne same] at stored
      exact cached found stored

theorem pos_of_strictlyIncreasingPositive {ids : List ℤ} (increasing : strictlyIncreasingPositive ids = true) :
    ∀ id ∈ ids, 0 < id := by
  induction ids with
  | nil => exact nofun
  | cons first rest ih =>
    cases rest with
    | nil => simpa [strictlyIncreasingPositive] using increasing
    | cons second rest =>
      simp only [strictlyIncreasingPositive, Bool.and_eq_true, decide_eq_true_eq] at increasing
      exact forall_mem_cons.mpr ⟨increasing.1.1, ih increasing.2⟩

/-- A channel that is in a cached snapshot has a positive id. -/
theorem Cached.positive {channelID : ℤ} (cached : Cached guildID view userID users revision)
    (stored : (visibilitySnapshotFor users userID guildID).isSome = true)
    (visible : channelID ∈ view revision userID) : 0 < channelID := by
  obtain ⟨snapshot, present⟩ := isSome_iff_exists.mp stored
  refine pos_of_strictlyIncreasingPositive snapshot.increasing channelID ?_
  rw [(cached snapshot present).1]
  exact visible

end Cached

namespace DispatchNode

/-- Between two events: nothing is being handled, and what is cached for the users of the guild is what
they may see. -/
structure Settled (guildID base : ℤ) (view : ℤ → ℤ → List ℤ) (node : DispatchNode) : Prop where
  idle : node.calls 0 = none
  unstarted : node.started = []
  held : ∀ ref ∈ node.reg.guilds.members guildID, (node.reg.heap ref).isSome = true
  cached : ∀ ref ∈ node.reg.guilds.members guildID,
    Cached guildID view (node.reg.userOf ref) node.users base

/-! ## One event at a time -/

section Standing

variable (guildID : ℤ) (view : ℤ → ℤ → List ℤ) (ref : SessionRef) (userID before : ℤ) (call : DispatchCall)

/-- The event in hand is a later one of the guild and leaves others than its target alone. -/
structure Handles : Prop where
  route : call.route = .guild guildID
  positive : 0 < call.event.revision
  later : before ≤ call.event.revision
  others : 0 < call.event.target → userID ≠ call.event.target →
    view call.event.revision userID = view before userID

/-- The stage captures who can see the channel of the event. -/
def Captures (stage : Stage) : Prop :=
  stage = .viewers call.event.channel ∨ ∃ found, stage = .view call.event.channel found

/-- The delivery lets a user who loses the channel through. -/
def Lets (gate : Gate) : Prop :=
  gate = .all ∨ gate = .access call.event.channel ∧ (Revokes view before call.event userID → userID ∈ call.viewers)

/-- The user's snapshot is there and a stage that will look at it is still to come. -/
def Remains (users : VisibilityUsers) (views : List Stage) : Prop :=
  (visibilitySnapshotFor users userID guildID).isSome = true ∧
    (.viewers call.event.channel ∈ views ∨ .view call.event.channel ref ∈ views)

/-- Where the handling of an event stands, for one session of the guild. -/
inductive Standing (users : VisibilityUsers) (offered : List (EventEnvelope × Offer)) : Prop
  | starting {views gate} (stages : call.stages = views ++ [.invalidateGuild call.event.target, .sessions gate])
      (quiet : ∀ stage ∈ views, Captures call stage) (cached : Cached guildID view userID users before)
      (captures : Lets view userID before call gate ∨
        gate = .access call.event.channel ∧ Remains guildID ref userID call users views)
  | invalidating {targets : List ℤ} {gate} (stages : call.stages = targets.map .invalidate ++ [.sessions gate])
      (cached : Cached guildID view userID users (if userID ∈ targets then before else call.event.revision))
      (lets : Lets view userID before call gate)
  | delivering {gate jobs queue} (stages : call.stages = [.deliver gate jobs queue])
      (cached : Cached guildID view userID users call.event.revision)
      (lets : Lets view userID before call gate)
      (reached : (call.event, call.event.offerTo ref) ∈ offered ∨ call.Addresses ref userID ∨
        ¬ Revokes view before call.event userID)
  | finished (stages : call.stages = []) (cached : Cached guildID view userID users call.event.revision)
      (reached : (call.event, call.event.offerTo ref) ∈ offered ∨ ¬ Revokes view before call.event userID)

end Standing

variable {guildID : ℤ} {view : ℤ → ℤ → List ℤ} {ref : SessionRef} {userID before : ℤ} {call : DispatchCall}
  {node next : DispatchNode} {stage : Stage} {rest : List Stage} {users : VisibilityUsers}
  {offered : List (EventEnvelope × Offer)}

namespace Standing

section

variable (standing : Standing guildID view ref userID before call users offered)

include standing

/-- Only the user's own snapshot matters. -/
theorem congr {after : VisibilityUsers}
    (same : visibilitySnapshotFor after userID guildID = visibilitySnapshotFor users userID guildID) :
    Standing guildID view ref userID before call after offered := by
  have kept : ∀ {revision}, Cached guildID view userID users revision → Cached guildID view userID after revision :=
    fun cached snapshot stored => cached snapshot (same ▸ stored)
  cases standing with
  | starting stages quiet cached captures =>
    refine .starting stages quiet (kept cached) (captures.imp_right fun remains => ?_)
    rw [Remains, same]
    exact remains
  | invalidating stages cached lets => exact .invalidating stages (kept cached) lets
  | delivering stages cached lets reached => exact .delivering stages (kept cached) lets reached
  | finished stages cached reached => exact .finished stages (kept cached) reached

/-- A stage that lists sessions. -/
theorem list {set : Finset SessionRef} {order : List SessionRef}
    (handles : Handles guildID view userID before call) (member : ref ∈ node.reg.guilds.members guildID)
    (user : node.reg.userOf ref = userID) (stages : call.stages = stage :: rest)
    (lists : call.lists node.reg stage = some set) (all : sessionsFromSet set order) :
    Standing guildID view ref userID before { call with stages := call.expand node.reg order stage ++ rest }
      users offered := by
  have members : call.route.members node.reg = node.reg.guilds.members guildID := by
    rw [handles.route]
    rfl
  have listed : set = call.route.members node.reg → ref ∈ order := by
    rintro rfl
    rw [← members, ← all.2] at member
    exact mem_toFinset.mp member
  cases standing with
  | @starting views gate started quiet cached captures =>
    cases views with
    | nil =>
      cases stages.symm.trans started
      cases lists
      have lets : Lets view userID before call gate := by
        rcases captures with lets | ⟨_, _, viewers | views⟩
        · exact lets
        · cases viewers
        · cases views
      refine .invalidating rfl ?_ lets
      split_ifs with targeted
      · exact cached
      · -- the user is listed, so it was left out because the event has another target
        have listedUser : userID ∈ node.reg.usersOf order :=
          mem_dedup.mpr (user ▸ mem_map_of_mem (listed rfl))
        have left : ¬ (call.event.target ≤ 0 ∨ userID = call.event.target) := fun found =>
          targeted (mem_filter.mpr ⟨listedUser, decide_eq_true found⟩)
        obtain ⟨positive, other⟩ := not_or.mp left
        intro snapshot stored
        obtain ⟨channels, older⟩ := cached snapshot stored
        exact ⟨channels.trans (handles.others (not_le.mp positive) other).symm, older.trans handles.later⟩
    | cons first views =>
      cases stages.symm.trans started
      rcases quiet stage mem_cons_self with rfl | ⟨found, rfl⟩
      · cases lists
        have expands := append_assoc (call.expand node.reg order (.viewers call.event.channel)) views
          [.invalidateGuild call.event.target, .sessions gate]
        refine .starting expands.symm ?_ cached ?_
        · intro stage made
          rcases mem_append.mp made with expanded | behind
          · simp only [DispatchCall.expand] at expanded
            split_ifs at expanded
            · cases expanded
            · obtain ⟨found, _, rfl⟩ := mem_map.mp expanded
              exact .inr ⟨found, rfl⟩
          · exact quiet stage (mem_cons_of_mem _ behind)
        · rcases captures with lets | ⟨rfl, stored, _⟩
          · exact .inl lets
          · by_cases absent : call.event.channel ≤ 0
            · -- no snapshot holds such a channel, so the user does not lose it
              refine .inl (.inr ⟨rfl, fun revokes => ?_⟩)
              exact absurd (cached.positive stored revokes.2.1) (not_lt.mpr absent)
            · refine .inr ⟨rfl, stored, .inr (mem_append_left _ ?_)⟩
              simp only [DispatchCall.expand, absent, ↓reduceIte]
              exact mem_map_of_mem (listed rfl)
      · cases lists
  | @invalidating targets gate started cached lets =>
    cases targets with
    | nil =>
      cases stages.symm.trans started
      cases lists
      have addresses := addresses_list node call gate (listed rfl) []
      rw [user] at addresses
      have cached : Cached guildID view userID users call.event.revision := cached
      rcases lets with rfl | ⟨rfl, through⟩
      · exact .delivering rfl cached (.inl rfl) (.inr (.inl addresses))
      · exact .delivering rfl cached (.inr ⟨rfl, through⟩) (.inr (.inl addresses))
    | cons first targets =>
      cases stages.symm.trans started
      cases lists
  | delivering started =>
    cases stages.symm.trans started
    cases lists
  | finished started => cases stages.symm.trans started

theorem delivers (delivering : call.stages.head?.any Stage.isDeliver = true) :
    ∃ gate jobs queue, call.stages = [.deliver gate jobs queue] ∧
      Cached guildID view userID users call.event.revision ∧ Lets view userID before call gate ∧
      ((call.event, call.event.offerTo ref) ∈ offered ∨ call.Addresses ref userID ∨
        ¬ Revokes view before call.event userID) := by
  cases standing with
  | @starting views _ stages quiet =>
    rw [stages] at delivering
    cases views with
    | nil => cases delivering
    | cons first views =>
      rcases quiet first mem_cons_self with rfl | ⟨_, rfl⟩ <;> cases delivering
  | @invalidating targets _ stages =>
    rw [stages] at delivering
    cases targets <;> cases delivering
  | delivering stages cached lets reached => exact ⟨_, _, _, stages, cached, lets, reached⟩
  | finished stages =>
    rw [stages] at delivering
    cases delivering

/-- The event is handed to a session. -/
theorem offer {gate : Gate} {jobs : List (ℤ × List SessionRef)} {queue : List Offer} {item : Offer}
    (stages : call.stages = .deliver gate jobs queue :: rest) :
    Standing guildID view ref userID before { call with stages := .deliver gate jobs (queue.erase item) :: rest }
      users ((call.event, item) :: offered) := by
  obtain ⟨_, _, _, started, cached, lets, reached⟩ := standing.delivers (by rw [stages]; rfl)
  cases stages.symm.trans started
  refine .delivering rfl cached lets ?_
  rcases reached with done | addresses | kept
  · exact .inl (mem_cons_of_mem _ done)
  · by_cases same : item = call.event.offerTo ref
    · exact .inl (same ▸ mem_cons_self)
    · exact .inr (.inl (addresses.erase stages same))
  · exact .inr (.inr kept)

end

/-- A stage without a choice. -/
theorem run {id : ℕ} {now : ℤ} (standing : Standing guildID view ref userID before call node.users offered)
    (handles : Handles guildID view userID before call) (user : node.reg.userOf ref = userID)
    (stages : call.stages = stage :: rest) (ran : node.runStage id call rest now stage = some next) :
    ∃ users moved, next = { node with users, calls := node.calls.set id moved } ∧ SameCall call moved ∧
      Standing guildID view ref userID before moved users offered := by
  have guild : call.guildID = guildID := congrArg DispatchRoute.id handles.route
  cases standing with
  | @starting views gate started quiet cached captures =>
    cases views with
    | nil =>
      cases stages.symm.trans started
      cases ran
    | cons first views =>
      cases stages.symm.trans started
      rcases quiet stage mem_cons_self with rfl | ⟨found, rfl⟩
      · cases ran
      · cases ran
        refine ⟨_, _, rfl, ⟨rfl, rfl, rfl, rfl⟩, .starting rfl
          (fun stage behind => quiet stage (mem_cons_of_mem _ behind)) cached ?_⟩
        rcases captures with (rfl | ⟨rfl, through⟩) | ⟨rfl, stored, ahead⟩
        · exact .inl (.inl rfl)
        · refine .inl (.inr ⟨rfl, fun revokes => ?_⟩)
          dsimp only
          split_ifs
          · exact Finset.mem_insert_of_mem (through revokes)
          · exact through revokes
        · by_cases same : found = ref
          · -- this is the look at the user's own snapshot
            subst same
            refine .inl (.inr ⟨rfl, fun revokes => ?_⟩)
            obtain ⟨snapshot, present⟩ := isSome_iff_exists.mp stored
            have sees : snapshot.contains call.event.channel = true := by
              refine decide_eq_true ?_
              rw [(cached snapshot present).1]
              exact revokes.2.1
            have looked : ∃ snapshot ∈ visibilitySnapshotFor node.users (node.reg.userOf found) call.guildID,
                snapshot.contains call.event.channel = true := ⟨snapshot, by rw [user, guild]; exact present, sees⟩
            dsimp only
            rw [if_pos looked, user]
            exact Finset.mem_insert_self ..
          · refine .inr ⟨rfl, stored, ?_⟩
            rcases ahead with viewers | view
            · rcases mem_cons.mp viewers with equal | behind
              · cases equal
              · exact .inl behind
            · rcases mem_cons.mp view with equal | behind
              · cases equal
                exact (same rfl).elim
              · exact .inr behind
  | @invalidating targets gate started cached lets =>
    cases targets with
    | nil =>
      cases stages.symm.trans started
      cases ran
    | cons first targets =>
      cases stages.symm.trans started
      cases ran
      refine ⟨_, _, rfl, ⟨rfl, rfl, rfl, rfl⟩, .invalidating rfl ?_ lets⟩
      rw [guild]
      by_cases this : userID = first
      · subst this
        rw [if_pos mem_cons_self] at cached
        split_ifs
        · exact cached.invalidate _ _
        · exact cached.invalidated handles.positive handles.later
      · have same : (userID ∈ first :: targets) = (userID ∈ targets) := by simp [this]
        simp only [same] at cached
        exact cached.invalidate _ _
  | @delivering gate jobs queue started cached lets reached =>
    cases stages.symm.trans started
    obtain ⟨rfl, rfl⟩ := runStage_deliver ran
    cases ran
    refine ⟨_, _, rfl, ⟨rfl, rfl, rfl, rfl⟩, .finished rfl cached (reached.imp_right ?_)⟩
    exact Or.rec (fun addresses => absurd ⟨rfl, rfl⟩ (addresses.not_finished stages)) fun kept => kept
  | finished started => cases stages.symm.trans started

/-- The check of a user, with the user's snapshot at hand. -/
theorem check {id : ℕ} {now checked : ℤ} {gate : Gate} {jobs : List (ℤ × List SessionRef)}
    {queue : List Offer} {refs : List SessionRef} {visibility : Except Status VisibilitySnapshot}
    (standing : Standing guildID view ref userID before call node.users offered)
    (stages : call.stages = .deliver gate jobs queue :: rest) (job : jobs.lookup checked = some refs)
    (found : visibility.toOption.isSome = true)
    (ran : node.checkUser id call gate jobs queue rest checked refs visibility now = some next) :
    ∃ withheld moved, next = { node with withheld, calls := node.calls.set id moved } ∧ SameCall call moved ∧
      Standing guildID view ref userID before moved node.users offered := by
  obtain ⟨_, _, _, started, cached, lets, reached⟩ := standing.delivers (by rw [stages]; rfl)
  cases stages.symm.trans started
  rcases lets with rfl | ⟨rfl, through⟩
  · cases ran
  · cases visibility with
    | error => cases found
    | ok snapshot =>
      -- what is on its way stays, and the job of the user itself passes if the user loses the channel
      have stays : ∀ offers, (checked = userID → Revokes view before call.event userID → offers = call.offers refs) →
          (call.event, call.event.offerTo ref) ∈ offered ∨
          DispatchCall.Addresses { call with
            stages := [.deliver (.access call.event.channel)
              (jobs.filter fun job => decide (job.1 ≠ checked)) (queue ++ offers)] } ref userID ∨
          ¬ Revokes view before call.event userID := by
        intro offers passes
        rcases reached with done | addresses | kept
        · exact .inl done
        · by_cases revokes : Revokes view before call.event userID
          · exact .inr (.inl (addresses.check stages job fun same => passes same revokes))
          · exact .inr (.inr revokes)
        · exact .inr (.inr kept)
      simp only [checkUser, some.injEq] at ran
      split_ifs at ran with seen
      · cases ran
        exact ⟨_, _, rfl, ⟨rfl, rfl, rfl, rfl⟩,
          .delivering rfl cached (.inr ⟨rfl, through⟩) (stays _ fun _ _ => rfl)⟩
      · cases ran
        refine ⟨_, _, rfl, ⟨rfl, rfl, rfl, rfl⟩,
          .delivering rfl cached (.inr ⟨rfl, through⟩) (stays _ fun same revokes => ?_)⟩
        exact absurd (.inl (same ▸ through revokes)) seen

end Standing

/-- The handling of an event that may change what members see begins by capturing who can see its
channel, if the event is about one that still exists, and goes to everyone otherwise. -/
theorem stages_of_changesAccess (guildID : ℤ) {event : EventEnvelope} (routed : event.routing.isSome = true)
    (changes : event.kind.changesAccess = true) :
    ∃ views gate, DispatchRoute.stages (.guild guildID) event =
        views ++ [.invalidateGuild event.target, .sessions gate] ∧
      (views = [] ∧ gate = .all ∨ views = [.viewers event.channel] ∧ gate = .access event.channel) := by
  obtain ⟨routing, found⟩ := isSome_iff_exists.mp routed
  unfold target channel kind at *
  simp only [DispatchRoute.stages, found, guildStages, getD_some]
  cases kind : EventType.ofName event.type
  all_goals first
    | exact ⟨[.viewers _], _, rfl, .inr ⟨rfl, rfl⟩⟩
    | exact ⟨[], .all, rfl, .inl ⟨rfl, rfl⟩⟩
    | (rw [kind] at changes; cases changes)

/-- For one session of the guild: the cache is right between events, and every event of the past that
took a channel from the user has been handed to the session. -/
structure Noticing (guildID base : ℤ) (view : ℤ → ℤ → List ℤ) (ref : SessionRef) (userID : ℤ)
    (node : DispatchNode) : Prop where
  member : ref ∈ node.reg.guilds.members guildID
  held : ∃ session, node.reg.heap ref = some session ∧ session.userID = userID
  idle : node.calls 0 = none → Cached guildID view userID node.users (lastRevision base node.started)
  busy : ∀ call, node.calls 0 = some call → ∃ earlier,
    node.started = (.guild guildID, call.event) :: earlier ∧
    Handles guildID view userID (lastRevision base earlier) call ∧
    Standing guildID view ref userID (lastRevision base earlier) call node.users node.offered
  past : ∀ later event earlier, node.started = later ++ (.guild guildID, event) :: earlier →
    (later = [] → node.calls 0 = none) → Revokes view (lastRevision base earlier) event userID →
    (event, event.offerTo ref) ∈ node.offered

namespace Noticing

variable {base : ℤ} {cfg : NodeConfig} {event : DispatchEvent}

variable (inv : Noticing guildID base view ref userID node)

include inv

theorem userOf : node.reg.userOf ref = userID := by
  obtain ⟨session, held, user⟩ := inv.held
  simp [Registry.userOf, held, user]

/-- A step of the call in hand moves it on, and may change the cache and hand the event over. -/
theorem moves {call moved : DispatchCall} {earlier : List (DispatchRoute × EventEnvelope)}
    (history : node.started = (.guild guildID, call.event) :: earlier)
    (handles : Handles guildID view userID (lastRevision base earlier) call)
    (held : ∃ session, next.reg.heap ref = some session ∧ session.userID = userID)
    (guilds : next.reg.guilds = node.reg.guilds) (calls : next.calls = node.calls.set 0 moved)
    (same : SameCall call moved) (started : next.started = node.started) (offered : node.offered ⊆ next.offered)
    (standing : Standing guildID view ref userID (lastRevision base earlier) moved next.users next.offered) :
    Noticing guildID base view ref userID next where
  member := guilds ▸ inv.member
  held := held
  idle none := by
    rw [calls, set_self] at none
    cases none
  busy found present := by
    rw [calls, set_self] at present
    cases present
    refine ⟨earlier, ?_, ⟨?_, ?_, ?_, ?_⟩, standing⟩
    · rw [started, same.event]
      exact history
    · rw [same.route]
      exact handles.route
    · rw [same.event]
      exact handles.positive
    · rw [same.event]
      exact handles.later
    · rw [same.event]
      exact handles.others
  past later event earlier history finished revokes := by
    rw [started] at history
    refine offered (inv.past later event earlier history (fun newest => ?_) revokes)
    have none := finished newest
    rw [calls, set_self] at none
    cases none

/-- A step beside the call. -/
theorem beside (held : ∃ session, next.reg.heap ref = some session ∧ session.userID = userID)
    (guilds : next.reg.guilds = node.reg.guilds) (calls : next.calls = node.calls)
    (started : next.started = node.started) (offered : next.offered = node.offered)
    (users : next.users = node.users) : Noticing guildID base view ref userID next where
  member := guilds ▸ inv.member
  held := held
  idle := by
    rw [calls, users, started]
    exact inv.idle
  busy := by
    rw [calls, users, started, offered]
    exact inv.busy
  past := by
    rw [calls, started, offered]
    exact inv.past

/-- A new event is taken up. -/
theorem dispatch {envelope : EventEnvelope} {revision : ℕ} {now : ℤ} (free : node.calls 0 = none)
    (oneByOne : node.OneByOne guildID base view (.dispatch 0 (.guild guildID) envelope revision now))
    (remembers : node.Remembers guildID base view (.dispatch 0 (.guild guildID) envelope revision now)) :
    Noticing guildID base view ref userID (node.request 0 (.guild guildID) envelope revision now) := by
  obtain ⟨_, _, requests, _⟩ := oneByOne
  obtain ⟨_, routed, changes, follows⟩ := requests _ rfl
  by_cases new : node.IsNew (.guild guildID) envelope now
  · obtain ⟨positive, later, others⟩ := follows new
    have others := others ref inv.member
    rw [inv.userOf] at others
    have cached := inv.idle free
    have remembered := remembers _ rfl new ref inv.member
    rw [inv.userOf] at remembered
    rw [request_of_isNew new]
    refine { inv with idle := ?idle, busy := ?busy, past := ?past }
    case idle => exact fun none => by cases (set_self node.calls 0 _).symm.trans none
    case busy =>
      intro call present
      cases (set_self node.calls 0 _).symm.trans present
      refine ⟨node.started, rfl, ⟨rfl, positive, later, fun positive other => others positive other⟩, ?_⟩
      obtain ⟨views, gate, stages, shape⟩ := stages_of_changesAccess guildID routed changes
      rcases shape with ⟨rfl, rfl⟩ | ⟨rfl, rfl⟩
      · exact .starting stages nofun cached (.inl (.inl rfl))
      · refine .starting stages (fun stage member => .inl (mem_singleton.mp member)) cached ?_
        by_cases revokes : Revokes view (lastRevision base node.started) envelope userID
        · exact .inr ⟨rfl, remembered revokes, .inl (mem_singleton_self _)⟩
        · exact .inl (.inr ⟨rfl, fun found => absurd found revokes⟩)
    case past =>
      intro later event earlier history finished revokes
      cases later with
      | nil => cases (set_self node.calls 0 _).symm.trans (finished rfl)
      | cons newest later =>
        exact inv.past later event earlier (cons.inj history).2 (fun _ => free) revokes
  · rw [request_of_not_isNew new]
    exact inv.beside inv.held rfl rfl rfl rfl rfl

/-- The event in hand is over. -/
theorem finish {call : DispatchCall} (current : node.calls 0 = some call) (stages : call.stages = []) :
    Noticing guildID base view ref userID { node with calls := node.calls.drop 0 } := by
  obtain ⟨earlier, history, handles, standing⟩ := inv.busy call current
  cases standing with
  | finished _ cached reached =>
    refine { inv with idle := ?idle, busy := ?busy, past := ?past }
    case idle =>
      intro _
      show Cached guildID view userID node.users (lastRevision base node.started)
      rw [history]
      exact cached
    case busy =>
      intro found present
      cases (drop_self node.calls 0).symm.trans present
    case past =>
      intro later event previous started _ revokes
      cases later with
      | nil =>
        have same := history.symm.trans started
        cases same
        rcases reached with offered | kept
        · exact offered
        · exact absurd revokes kept
      | cons newest later => exact inv.past _ event previous started nofun revokes
  | @starting views _ started =>
    cases views <;> cases stages.symm.trans started
  | @invalidating targets _ started =>
    cases targets <;> cases stages.symm.trans started
  | delivering started => cases stages.symm.trans started

/-- A reload during a delivery stores what the user may see after the event. -/
theorem install {other guild : ℤ} {generation : ℕ} {snapshot : VisibilitySnapshot}
    (reloads : guild = guildID → node.Reloads view other snapshot) :
    Noticing guildID base view ref userID { node with
      users := (installReloadedVisibilitySnapshot node.users other guild generation snapshot).1 } := by
  refine { inv with idle := ?idle, busy := ?busy }
  case idle =>
    intro free
    refine (inv.idle free).install fun _ same => ?_
    obtain ⟨call, current, _⟩ := reloads same
    cases free.symm.trans current
  case busy =>
    intro call current
    obtain ⟨earlier, history, handles, standing⟩ := inv.busy call current
    refine ⟨earlier, history, handles, ?_⟩
    by_cases same : guild = guildID
    · obtain ⟨found, present, delivers, revision, channels⟩ := reloads same
      cases current.symm.trans present
      obtain ⟨_, _, _, stages, cached, lets, reached⟩ := standing.delivers delivers
      refine .delivering stages (cached.install fun this _ => ?_) lets reached
      exact ⟨this ▸ channels, revision.le⟩
    · exact standing.congr (visibilitySnapshotFor_install_of_ne fun this => same this.2)

theorem step (oneByOne : node.OneByOne guildID base view event) (remembers : node.Remembers guildID base view event)
    (step : (dispatchMachine cfg).step node event = some next) : Noticing guildID base view ref userID next := by
  have transition := transition_step step
  have held : ∃ session, next.reg.heap ref = some session ∧ session.userID = userID := by
    obtain ⟨session, held, user⟩ := inv.held
    obtain ⟨after, present, same⟩ := userID_transition transition held
    exact ⟨after, present, same.trans user⟩
  have ⟨alone, settled, requests, checks, installs⟩ := oneByOne
  cases transition with
  | commit | rotate | cleanup | fail => exact inv.beside held rfl rfl rfl rfl rfl
  | touch => exact inv.beside held (modify_guilds _) rfl rfl rfl rfl
  | @dispatch id route envelope revision now free =>
    cases alone id rfl
    cases (requests _ rfl).1
    exact inv.dispatch free oneByOne remembers
  | @list id order call stage rest set current stages lists all =>
    cases alone id rfl
    obtain ⟨earlier, history, handles, standing⟩ := inv.busy call current
    obtain ⟨_, _, moved, _⟩ := list_eq 0 rest order lists
    rw [moved] at held ⊢
    exact inv.moves history handles held rfl rfl ⟨rfl, rfl, rfl, rfl⟩ rfl (Subset.refl _)
      (standing.list handles inv.member inv.userOf stages lists all)
  | @run id now call stage rest _ current stages ran =>
    cases alone id rfl
    obtain ⟨earlier, history, handles, standing⟩ := inv.busy call current
    obtain ⟨_, _, rfl, same, moved⟩ := standing.run handles inv.userOf stages ran
    exact inv.moves history handles held rfl rfl same rfl (Subset.refl _) moved
  | @check id checked visibility now call gate jobs queue rest refs _ current stages job ran =>
    cases alone id rfl
    obtain ⟨earlier, history, handles, standing⟩ := inv.busy call current
    obtain ⟨_, _, rfl, same, moved⟩ := standing.check stages job (checks _ rfl).1 ran
    exact inv.moves history handles held rfl rfl same rfl (Subset.refl _) moved
  | @offer id touched moment call gate jobs queue rest item current stages =>
    cases alone id rfl
    obtain ⟨earlier, history, handles, standing⟩ := inv.busy call current
    exact inv.moves history handles held (modify_guilds _) rfl ⟨rfl, rfl, rfl, rfl⟩ rfl
      (subset_cons_self ..) (standing.offer stages)
  | @finish id call current stages =>
    cases alone id rfl
    exact inv.finish current stages
  | install => exact inv.install (installs _ rfl)
  | load | addSession | retain | ready | unbind | unregister | release | discard => cases settled

end Noticing

end DispatchNode

end Cordis.Session
