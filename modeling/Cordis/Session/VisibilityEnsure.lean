import Cordis.Session.VisibilityFreshness

/-! # What a shared reload returns to its callers

`ensureVisibilitySnapshot` answers from the stored snapshot or joins the one reload in flight for
its user and guild. A flight stays registered from the call that creates it until its result has
been handed to everyone who joined, and a caller may join at any point of that interval.

Each call records the revision its entry required when it started. Installation checks the
candidate against the entry, so everyone who has joined by then is served at or above what they
recorded. A call that joins afterwards is not covered by that check: if the entry was invalidated
in between, it receives the older snapshot.
-/

namespace Cordis.Session

open Option

/-- The goroutine behind one registered singleflight key. -/
inductive FlightPhase where
  | acquire
  | reload (phase : ReloadPhase)

/-- The snapshot of a flight whose reload has succeeded. -/
def FlightPhase.landed : FlightPhase → Option VisibilitySnapshot
  | .reload (.returned (.ok snapshot)) => some snapshot
  | _ => none

inductive EnsurePhase where
  | check
  | join
  | waiting
  | delivered (result : Except Status VisibilitySnapshot)
  | returned (result : Except Status VisibilitySnapshot)

/-- A call of `ensureVisibilitySnapshot` and the revision required when it started. -/
structure EnsureCall where
  userID : ℤ
  guildID : ℤ
  required : ℤ
  phase : EnsurePhase

structure EnsureNode where
  users : VisibilityUsers := fun _ => none
  flights : Pool (ℤ × ℤ) FlightPhase := Pool.empty
  calls : Pool ℕ EnsureCall := Pool.empty

inductive EnsureEvent where
  | retain (userID : ℤ) (snapshots : List (ℤ × VisibilitySnapshot))
  | invalidate (userID guildID accessRevision : ℤ)
  | start (call : ℕ) (userID guildID : ℤ)
  | check (call : ℕ)
  | join (call : ℕ)
  | acquire (key : ℤ × ℤ) (ctxErr : Option Status)
  | target (key : ℤ × ℤ)
  | load (key : ℤ × ℤ) (response : Except Status (Option GuildChannelVisibility))
  | install (key : ℤ × ℤ) (ctxErr : Option Status)
  | unregister (key : ℤ × ℤ)
  | receive (call : ℕ)
  | timeout (call : ℕ) (ctxErr : Status)

/-- The revision the entry requires, or zero when there is none. -/
def requiredFor (users : VisibilityUsers) (userID guildID : ℤ) : ℤ :=
  (entryFor users userID guildID).elim 0 VisibilityEntry.requiredRevision

/-- The result reaches a call that waits on the key. -/
def EnsureCall.deliver (key : ℤ × ℤ) (result : Except Status VisibilitySnapshot) (call : EnsureCall) :
    EnsureCall :=
  match call.phase with
  | .waiting => if (call.userID, call.guildID) = key then { call with phase := .delivered result } else call
  | _ => call

namespace EnsureNode

variable (node : EnsureNode)

def setCall (id : ℕ) (call : EnsureCall) (phase : EnsurePhase) : EnsureNode :=
  { node with calls := node.calls.set id { call with phase } }

def setFlight (key : ℤ × ℤ) (flight : FlightPhase) : EnsureNode :=
  { node with flights := node.flights.set key flight }

def step (cfg : NodeConfig) (node : EnsureNode) : EnsureEvent → Option EnsureNode
  | .retain userID snapshots =>
      some { node with users := retainVisibilitySnapshots node.users userID snapshots }
  | .invalidate userID guildID accessRevision =>
      some { node with
        users := (invalidateVisibilityGuild node.users userID guildID accessRevision).1 }
  | .start id userID guildID =>
      match node.calls id with
      | some _ => none
      | none => some (node.setCall id
          ⟨userID, guildID, requiredFor node.users userID guildID, .check⟩ .check)
  | .check id => do
      let call ← node.calls id
      match call.phase with
      | .check =>
          match visibilitySnapshotFor node.users call.userID call.guildID with
          | some snapshot => some (node.setCall id call (.returned (.ok snapshot)))
          | none => some (node.setCall id call .join)
      | _ => none
  | .join id => do
      let call ← node.calls id
      match call.phase with
      | .join =>
          match node.flights (call.userID, call.guildID) with
          | some _ => some (node.setCall id call .waiting)
          | none =>
              some ((node.setCall id call .waiting).setFlight (call.userID, call.guildID) .acquire)
      | _ => none
  | .acquire key ctxErr =>
      match node.flights key with
      | some .acquire =>
          match ctxErr with
          | some status => some (node.setFlight key (.reload (.returned (.error status))))
          | none => some (node.setFlight key (.reload (.target 0)))
      | _ => none
  | .target key =>
      match node.flights key with
      | some (.reload (.target attempt)) =>
          some (node.setFlight key (.reload (reloadTarget node.users key.1 key.2 attempt)))
      | _ => none
  | .load key response =>
      match node.flights key with
      | some (.reload (.load attempt generation requiredRevision)) =>
          some (node.setFlight key
            (.reload (reloadLoad cfg key.2 attempt generation requiredRevision response)))
      | _ => none
  | .install key ctxErr =>
      match node.flights key with
      | some (.reload (.install attempt generation candidate)) =>
          let result := reloadInstall node.users key.1 key.2 attempt generation candidate ctxErr
          some ({ node with users := result.1 }.setFlight key (.reload result.2))
      | _ => none
  | .unregister key =>
      match node.flights key with
      | some (.reload (.returned result)) =>
          some { node with
            flights := node.flights.drop key
            calls := node.calls.map (EnsureCall.deliver key result) }
      | _ => none
  | .receive id => do
      let call ← node.calls id
      match call.phase with
      | .delivered result => some (node.setCall id call (.returned result))
      | _ => none
  | .timeout id ctxErr => do
      let call ← node.calls id
      match call.phase with
      | .waiting => some (node.setCall id call (.returned (.error ctxErr)))
      | .delivered _ => some (node.setCall id call (.returned (.error ctxErr)))
      | _ => none

/-- The snapshot the key's flight is about to hand out. -/
def landed (key : ℤ × ℤ) : Option VisibilitySnapshot :=
  (node.flights key).bind FlightPhase.landed

/-- A call joins a flight that has already installed a snapshot older than the entry requires by
now. -/
def JoinsOutdated : EnsureEvent → Prop
  | .join id => ∃ call ∈ node.calls id, ∃ snapshot ∈ node.landed (call.userID, call.guildID),
      snapshot.accessRevision < requiredFor node.users call.userID call.guildID
  | _ => False

instance (event : EnsureEvent) : Decidable (node.JoinsOutdated event) := by
  cases event <;> dsimp only [JoinsOutdated] <;> infer_instance

end EnsureNode

def ensureMachine (cfg : NodeConfig) : Machine EnsureNode EnsureEvent where
  step := EnsureNode.step cfg

/-- Every snapshot a call has returned reflects what was required when the call started. -/
def ServedFresh (node : EnsureNode) : Prop :=
  ∀ id call snapshot, node.calls id = some call → call.phase = .returned (.ok snapshot) →
    call.required ≤ snapshot.accessRevision

/-! ## The required revision never falls -/

section Required

variable (users : VisibilityUsers) (userID guildID user guild : ℤ)

theorem requiredFor_retain (snapshots : List (ℤ × VisibilitySnapshot)) :
    requiredFor (retainVisibilitySnapshots users userID snapshots) user guild =
      requiredFor users user guild := by
  by_cases same : user = userID
  · subst same
    simp only [requiredFor, entryFor_retain]
    split
    · rfl
    · cases entryFor users user guild with
      | none => rfl
      | some entry =>
        simp only [retainEntry]
        split_ifs <;> rfl
  · rw [requiredFor, entryFor_retain_of_ne users same, requiredFor]

theorem requiredRevision_le_invalidateEntry (entry : VisibilityEntry) (accessRevision : ℤ) :
    entry.requiredRevision ≤ (invalidateEntry entry accessRevision).1.requiredRevision := by
  simp only [invalidateEntry]
  split_ifs
  · exact le_rfl
  · exact le_rfl
  · exact le_max_left ..
  · exact le_rfl

theorem requiredFor_le_invalidate (accessRevision : ℤ) :
    requiredFor users user guild ≤
      requiredFor (invalidateVisibilityGuild users userID guildID accessRevision).1 user guild := by
  by_cases same : user = userID ∧ guild = guildID
  · obtain ⟨rfl, rfl⟩ := same
    cases known : users user with
    | none => simp [invalidateVisibilityGuild, known]
    | some state =>
      simp only [requiredFor, entryFor_invalidate known, elim_some]
      cases entryFor users user guild with
      | none => exact requiredRevision_le_invalidateEntry {} accessRevision
      | some entry => exact requiredRevision_le_invalidateEntry entry accessRevision
  · rw [requiredFor, requiredFor, entryFor_invalidate_of_ne users same]

/-- Installation changes no required revision, and installs only what meets it. -/
theorem requiredFor_install (generation : ℕ) (candidate : VisibilitySnapshot) :
    requiredFor (installReloadedVisibilitySnapshot users userID guildID generation candidate).1 user guild =
        requiredFor users user guild ∧
      ((installReloadedVisibilitySnapshot users userID guildID generation candidate).2 = true →
        requiredFor users userID guildID ≤ candidate.accessRevision) := by
  rcases install_cases users userID guildID generation candidate with
    refused | ⟨state, entry, known, present, _, enough, installed⟩
  · rw [refused]
    exact ⟨rfl, fun impossible => nomatch impossible⟩
  · have held : entryFor users userID guildID = some entry := by
      simp [entryFor, known, present]
    rw [installed]
    refine ⟨?_, fun _ => by simpa only [requiredFor, held, elim_some] using enough⟩
    by_cases same : user = userID ∧ guild = guildID
    · obtain ⟨rfl, rfl⟩ := same
      simp [requiredFor, entryFor_putEntry, held]
    · rw [requiredFor, entryFor_putEntry_of_ne known _ same, requiredFor]

end Required

/-! ## Calls and flights -/

/-- What a call recorded is still required, and every snapshot on its way to the call or already
returned by it reflects that. -/
structure EnsureCall.Served (node : EnsureNode) (call : EnsureCall) : Prop where
  started : call.required ≤ requiredFor node.users call.userID call.guildID
  joined : call.phase = .waiting → ∀ snapshot, node.landed (call.userID, call.guildID) = some snapshot →
    call.required ≤ snapshot.accessRevision
  handed : ∀ snapshot, call.phase = .delivered (.ok snapshot) ∨ call.phase = .returned (.ok snapshot) →
    call.required ≤ snapshot.accessRevision

namespace EnsureCall.Served

variable {node next : EnsureNode} {call : EnsureCall}

/-- The rest of the node may move, as long as required revisions only grow and a reload lands only
with what is required. -/
theorem move (served : call.Served node)
    (grow : ∀ userID guildID, requiredFor node.users userID guildID ≤ requiredFor next.users userID guildID)
    (land : ∀ key snapshot, next.landed key = some snapshot →
      node.landed key = some snapshot ∨ requiredFor node.users key.1 key.2 ≤ snapshot.accessRevision) :
    call.Served next where
  started := served.started.trans (grow _ _)
  joined waiting snapshot landed := by
    rcases land _ snapshot landed with before | enough
    · exact served.joined waiting snapshot before
    · exact served.started.trans enough
  handed := served.handed

/-- A call that neither waits nor holds a snapshot has nothing to show. -/
theorem idle (started : call.required ≤ requiredFor node.users call.userID call.guildID)
    {phase : EnsurePhase} (notWaiting : phase ≠ .waiting)
    (empty : ∀ snapshot, phase ≠ .delivered (.ok snapshot) ∧ phase ≠ .returned (.ok snapshot)) :
    EnsureCall.Served node { call with phase } where
  started := started
  joined waiting := absurd waiting notWaiting
  handed snapshot held := (held.elim (empty snapshot).1 (empty snapshot).2).elim

variable {result : Except Status VisibilitySnapshot}

/-- A call that returns a snapshot is served if the snapshot reflects what it recorded. -/
theorem returned (started : call.required ≤ requiredFor node.users call.userID call.guildID)
    (enough : ∀ snapshot, result = .ok snapshot → call.required ≤ snapshot.accessRevision) :
    EnsureCall.Served node { call with phase := .returned result } where
  started := started
  joined := by simp
  handed snapshot held := by
    rcases held with ⟨⟨⟩⟩ | same
    exact enough snapshot (EnsurePhase.returned.inj same)

theorem deliver {key : ℤ × ℤ} (served : call.Served node)
    (finished : node.flights key = some (.reload (.returned result)))
    (users : next.users = node.users) (flights : next.flights = node.flights.drop key) :
    (call.deliver key result).Served next := by
  have moved : call.Served next := by
    refine served.move (fun _ _ => by rw [users]) fun other snapshot landed => .inl ?_
    by_cases same : other = key
    · simp [EnsureNode.landed, flights, same] at landed
    · simpa only [EnsureNode.landed, flights, Pool.drop_of_ne _ same] using landed
  simp only [EnsureCall.deliver]
  split
  · next waiting =>
    split_ifs with same
    · refine ⟨moved.started, (by simp), fun snapshot held => ?_⟩
      rcases held with delivered | ⟨⟨⟩⟩
      cases EnsurePhase.delivered.inj delivered
      -- the flight had landed with this snapshot while the call was waiting for it
      refine served.joined waiting snapshot ?_
      rw [same, EnsureNode.landed, finished, bind_some, FlightPhase.landed]
    · exact moved
  · exact moved

end EnsureCall.Served

/-- Stored snapshots are current and every call is served. -/
structure EnsureNode.Safe (node : EnsureNode) : Prop where
  current : AllCurrent node.users
  calls : node.calls.All fun _ call => call.Served node

namespace EnsureNode

variable {node next : EnsureNode}

theorem landed_setFlight (node : EnsureNode) (key : ℤ × ℤ) (flight : FlightPhase) (other : ℤ × ℤ) :
    (node.setFlight key flight).landed other = if other = key then flight.landed else node.landed other := by
  split_ifs with same
  · simp [landed, setFlight, same, Pool.set_self]
  · simp only [landed, setFlight, Pool.set_of_ne _ same]

/-- A flight may take a phase that hands out nothing. -/
theorem Safe.setFlight (safe : node.Safe) (key : ℤ × ℤ) {flight : FlightPhase}
    (empty : flight.landed = none) : (node.setFlight key flight).Safe where
  current := safe.current
  calls := safe.calls.mono fun _ _ _ served => served.move (fun _ _ => le_rfl) fun other snapshot landed => by
    rw [landed_setFlight] at landed
    split_ifs at landed with same
    · rw [empty] at landed
      cases landed
    · exact .inl landed

/-- A call may take a phase in which it is served; the others do not notice. -/
theorem Safe.setCall (safe : node.Safe) (id : ℕ) {call : EnsureCall} {phase : EnsurePhase}
    (served : EnsureCall.Served node { call with phase }) : (node.setCall id call phase).Safe where
  current := safe.current
  calls := Pool.All.set (safe.calls.mono fun _ _ _ kept => ⟨kept.started, kept.joined, kept.handed⟩)
    ⟨served.started, served.joined, served.handed⟩

/-- A reload lands only when its candidate was installed. -/
theorem reloadInstall_landed {users : VisibilityUsers} {userID guildID : ℤ} {attempt generation : ℕ}
    {candidate snapshot : VisibilitySnapshot} {ctxErr : Option Status}
    (landed : (FlightPhase.reload
      (reloadInstall users userID guildID attempt generation candidate ctxErr).2).landed = some snapshot) :
    snapshot = candidate ∧
      (installReloadedVisibilitySnapshot users userID guildID generation candidate).2 = true := by
  simp only [reloadInstall] at landed
  split_ifs at landed with installed
  · cases landed
    exact ⟨rfl, installed⟩
  all_goals
    cases ctxErr <;> cases landed

theorem Safe.install (safe : node.Safe) (key : ℤ × ℤ) (attempt generation : ℕ)
    (candidate : VisibilitySnapshot) (ctxErr : Option Status) :
    let result := reloadInstall node.users key.1 key.2 attempt generation candidate ctxErr
    ({ node with users := result.1 }.setFlight key (.reload result.2)).Safe := by
  intro result
  have users : result.1 =
      (installReloadedVisibilitySnapshot node.users key.1 key.2 generation candidate).1 :=
    reloadInstall_users ..
  constructor
  · change AllCurrent result.1
    rw [users]
    exact safe.current.install key.1 key.2 generation candidate
  · refine safe.calls.mono fun _ _ _ served => served.move (fun user guild => ?_) fun other snapshot landed => ?_
    · change _ ≤ requiredFor result.1 user guild
      rw [users, (requiredFor_install ..).1]
    · rw [landed_setFlight] at landed
      split_ifs at landed with same
      · obtain ⟨rfl, installed⟩ := reloadInstall_landed landed
        subst same
        exact .inr ((requiredFor_install node.users other.1 other.2 other.1 other.2 _ _).2 installed)
      · exact .inl landed

theorem Safe.step {cfg : NodeConfig} {event : EnsureEvent} (safe : node.Safe)
    (timely : ¬ node.JoinsOutdated event) (step : node.step cfg event = some next) : next.Safe := by
  cases event with simp only [EnsureNode.step] at step
  | retain userID snapshots =>
    cases step
    refine ⟨safe.current.retain userID snapshots, safe.calls.mono fun _ _ _ served => ?_⟩
    exact served.move (fun _ _ => (requiredFor_retain ..).ge) fun _ _ landed => .inl landed
  | invalidate userID guildID accessRevision =>
    cases step
    refine ⟨safe.current.invalidate userID guildID accessRevision, safe.calls.mono fun _ _ _ served => ?_⟩
    exact served.move (fun _ _ => requiredFor_le_invalidate ..) fun _ _ landed => .inl landed
  | start id userID guildID =>
    split at step <;> cases step
    exact safe.setCall id (.idle le_rfl (by simp) (by simp))
  | check id =>
    obtain ⟨call, present, step⟩ := bind_eq_some_iff.mp step
    have started := (safe.calls id call present).started
    split at step
    · split at step
      · next snapshot stored =>
        cases step
        refine safe.setCall id (.returned started fun _ same => ?_)
        cases same
        refine started.trans ?_
        obtain ⟨entry, present, held⟩ := bind_eq_some_iff.mp stored
        simp only [requiredFor, present, elim_some]
        exact safe.current _ _ _ present snapshot held
      · cases step
        exact safe.setCall id (.idle started (by simp) (by simp))
    · cases step
  | join id =>
    obtain ⟨call, present, step⟩ := bind_eq_some_iff.mp step
    have started := (safe.calls id call present).started
    have joined : EnsureCall.Served node { call with phase := .waiting } := by
      refine ⟨started, fun _ snapshot landed => ?_, fun _ held => by rcases held with ⟨⟨⟩⟩ | ⟨⟨⟩⟩⟩
      refine started.trans (not_lt.mp fun outdated => timely ?_)
      exact ⟨call, present, snapshot, landed, outdated⟩
    split at step
    · split at step <;> cases step
      · exact safe.setCall id joined
      · exact (safe.setCall id joined).setFlight _ rfl
    · cases step
  | acquire key ctxErr =>
    split at step
    · split at step <;> cases step <;> exact safe.setFlight key rfl
    · cases step
  | target key =>
    split at step <;> cases step
    refine safe.setFlight key ?_
    simp only [reloadTarget]
    split <;> rfl
  | load key response =>
    split at step <;> cases step
    refine safe.setFlight key ?_
    simp only [reloadLoad]
    split
    · rfl
    · split_ifs <;> rfl
  | install key ctxErr =>
    split at step <;> cases step
    exact safe.install ..
  | unregister key =>
    split at step
    · next result finished =>
      cases step
      exact ⟨safe.current, safe.calls.map fun _ _ served => served.deliver finished rfl rfl⟩
    · cases step
  | receive id =>
    obtain ⟨call, present, step⟩ := bind_eq_some_iff.mp step
    have served := safe.calls id call present
    split at step
    · next result delivered =>
      cases step
      refine safe.setCall id (.returned served.started fun snapshot same => ?_)
      exact served.handed snapshot (.inl (same ▸ delivered))
    · cases step
  | timeout id ctxErr =>
    obtain ⟨call, present, step⟩ := bind_eq_some_iff.mp step
    have started := (safe.calls id call present).started
    split at step <;> cases step <;> exact safe.setCall id (.returned started (by simp))

end EnsureNode

/-- In every run in which no call joins a flight that has already landed with a snapshot older than
the entry requires by then, a snapshot returned by `ensureVisibilitySnapshot` reflects the revision
that was required when the call started. -/
theorem ensured_snapshot_reflects_required {cfg : NodeConfig} {events : List EnsureEvent}
    {final : EnsureNode} (run : (ensureMachine cfg).run {} events = some final)
    (timely : (ensureMachine cfg).Along (fun node event => ¬ node.JoinsOutdated event) {} events) :
    ServedFresh final := by
  have start : EnsureNode.Safe {} := ⟨by rintro _ _ _ ⟨⟩, Pool.all_empty _⟩
  have safe : final.Safe := Machine.invariant_along (fun _ _ _ safe timely step => safe.step timely step) run timely start
  exact fun id call snapshot present returned => (safe.calls id call present).handed snapshot (.inr returned)

/-- Two calls share one reload and both receive revision 8, required when they started. -/
theorem shared_reload_serves_both :
    ∃ final : EnsureNode,
      (ensureMachine {}).run {} [.retain 1001 [(30, ⟨7, [41, 42], by decide, by decide⟩)],
        .invalidate 1001 30 8, .start 0 1001 30, .check 0, .join 0, .acquire (1001, 30) none,
        .target (1001, 30), .start 1 1001 30, .check 1, .join 1,
        .load (1001, 30) (.ok (some ⟨30, 8, [41]⟩)), .install (1001, 30) none, .unregister (1001, 30),
        .receive 0, .receive 1] = some final ∧
      ServedFresh final := by
  exact Machine.exists_run rfl fun run => ensured_snapshot_reflects_required run (by decide)

/-- The flight has installed revision 8 and is still registered when the entry is invalidated at 9.
A call that starts then misses the cache, joins the flight and returns revision 8. -/
theorem late_joiner_served_outdated :
    ∃ final : EnsureNode,
      (ensureMachine {}).run {} [.retain 1001 [(30, ⟨7, [41, 42], by decide, by decide⟩)],
        .invalidate 1001 30 8, .start 0 1001 30, .check 0, .join 0, .acquire (1001, 30) none,
        .target (1001, 30), .load (1001, 30) (.ok (some ⟨30, 8, [41, 42]⟩)), .install (1001, 30) none,
        .invalidate 1001 30 9, .start 1 1001 30, .check 1, .join 1, .unregister (1001, 30),
        .receive 1] = some final ∧
      ¬ ServedFresh final := by
  refine ⟨_, rfl, fun fresh => ?_⟩
  exact absurd (fresh 1 _ _ rfl rfl) (by decide)

end Cordis.Session
