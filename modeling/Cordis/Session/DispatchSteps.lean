import Cordis.Session.Detachment
import Cordis.Session.Dispatch

/-! # What one step of the dispatch machine can do

The step functions look their task up, compare its phase, and run one section. `Transition` lists
the steps that come out of this, with the facts each was found with, so that an invariant is a case
analysis over steps and not over lookups. The lemmas after it say what a section does to the heap
and to the frames of the other sessions.
-/

namespace Cordis.Session

open List

namespace DispatchNode

variable (cfg : NodeConfig) (node : DispatchNode) in
inductive Transition : DispatchEvent → DispatchNode → Prop
  | commit {guildID} : Transition (.commit guildID)
        { node with committed := Function.update node.committed guildID (node.committed guildID + 1) }
  | dispatch {id route event revision now} (free : node.calls id = none) (admits : route.Admits event)
      (past : revision ≤ node.committed route.id) :
      Transition (.dispatch id route event revision now) (node.request id route event revision now)
  | list {id order call stage rest set} (current : node.calls id = some call)
      (stages : call.stages = stage :: rest) (lists : call.lists node.reg stage = some set)
      (all : sessionsFromSet set order) :
      Transition (.list id order) (node.list id call stage rest order)
  | run {id now call stage rest next} (current : node.calls id = some call)
      (stages : call.stages = stage :: rest) (ran : node.runStage id call rest now stage = some next) :
      Transition (.run id now) next
  | check {id userID visibility now call gate jobs queue rest refs next}
      (current : node.calls id = some call) (stages : call.stages = .deliver gate jobs queue :: rest)
      (job : jobs.lookup userID = some refs)
      (checked : node.checkUser id call gate jobs queue rest userID refs visibility now = some next) :
      Transition (.check id userID visibility now) next
  | offer {id ref moment call gate jobs queue rest item} (current : node.calls id = some call)
      (stages : call.stages = .deliver gate jobs queue :: rest) (waiting : item ∈ queue)
      (addressed : item.ref = ref) :
      Transition (.offer id ref moment) (node.offer cfg id call gate jobs queue rest item moment)
  | finish {id call} (current : node.calls id = some call) (stages : call.stages = []) :
      Transition (.finish id) { node with calls := node.calls.drop id }
  | load {id identity response snapshots} (free : node.identifies id = none)
      (accepted : loadReadyGuilds cfg response = .ok snapshots) :
      Transition (.load id identity response)
        (node.setIdentify id { identity, snapshots, loaded := node.committed, detached := node.detached })
  | addSession {id ref call} (current : node.identifies id = some call) (phase : call.phase = .loaded)
      (fresh : node.reg.heap ref = none) (unused : node.reg.sessions call.identity.sessionID = none) :
      Transition (.addSession id ref)
        ({ node with reg := node.reg.addSession ref (call.identity.session cfg call.guilds) }.setIdentify id
          { call with phase := .registered ref })
  | retain {id ref call} (current : node.identifies id = some call) (phase : call.phase = .registered ref) :
      Transition (.retainSnapshots id)
        ({ node with
          users := retainVisibilitySnapshots node.users call.identity.userID call.snapshots }.setIdentify id
          { call with phase := .retained ref })
  | ready {id payload moments ref call session} (current : node.identifies id = some call)
      (phase : call.phase = .retained ref) (held : node.reg.heap ref = some session)
      (sound : session.pendingDispatchOverflow = false) :
      Transition (.ready id payload moments) (node.greet cfg id call ref payload moments)
  | fail {event id ref call} (current : node.identifies id = some call)
      (phase : call.phase = .retained ref) (identifying : event.call = none) :
      Transition event (node.setIdentify id { call with phase := .failed ref })
  | unbind {id ref call} (current : node.identifies id = some call) (phase : call.phase = .failed ref) :
      Transition (.unbind id)
        ((node.onSession cfg ref .remove).setIdentify id
          { call with phase := .unbound ref (node.reg.guildsOf ref) })
  | unregister {id ref guildIDs call} (current : node.identifies id = some call)
      (phase : call.phase = .unbound ref guildIDs) :
      Transition (.unregister id)
        ({ node with reg := node.reg.unregister ref guildIDs }.setIdentify id
          { call with phase := .releasing })
  | release {id call} (current : node.identifies id = some call) (phase : call.phase = .releasing) :
      Transition (.release id)
        { node with
          users := releaseVisibilitySnapshots node.users call.identity.userID
          identifies := node.identifies.drop id }
  | install {userID guildID generation snapshot} : Transition (.install userID guildID generation snapshot)
        { node with
          users := (installReloadedVisibilitySnapshot node.users userID guildID generation snapshot).1 }
  | rotate {now} : Transition (.rotate now) { node with dedup := node.dedup.rotateAll now }
  | cleanup {now} : Transition (.cleanup now) { node with watermarks := node.watermarks.cleanup now }
  | touch {ref ran} (ordinary : ∀ payload moments, ran ≠ .ready payload moments) :
      Transition (.touch ref ran) (node.onSession cfg ref ran)
  | discard {ref guildIDs session} (held : node.reg.heap ref = some session)
      (greeted : session.initializing = false) :
      Transition (.discard ref guildIDs)
        { node with reg := node.reg.unregister ref guildIDs, discarded := ref :: node.discarded }

variable {cfg : NodeConfig} {node next : DispatchNode} {event : DispatchEvent}

theorem transition_stepDispatch (step : node.stepDispatch cfg event = some next) :
    node.Transition cfg event next := by
  cases event with simp only [stepDispatch] at step
  | dispatch id route event revision now =>
    split_ifs at step with legal
    cases step
    exact .dispatch legal.1 legal.2.1 legal.2.2
  | list id order =>
    split at step <;> try cases step
    next call current =>
      split at step <;> try cases step
      next stage rest stages =>
        split at step <;> try cases step
        next set lists =>
          split_ifs at step with all
          cases step
          exact .list current stages lists all
  | run id now =>
    split at step <;> try cases step
    next call current =>
      split at step <;> try cases step
      next stage rest stages => exact .run current stages step
  | check id userID visibility now =>
    split at step <;> try cases step
    next call current =>
      split at step <;> try cases step
      next gate jobs queue rest stages =>
        split at step <;> try cases step
        next refs job => exact .check current stages job step
  | offer id ref moment =>
    split at step <;> try cases step
    next call current =>
      split at step <;> try cases step
      next gate jobs queue rest stages =>
        split at step <;> cases step
        next item found =>
          have addressed := find?_some found
          exact .offer current stages (mem_of_find?_eq_some found) (of_decide_eq_true addressed)
  | finish id =>
    split at step <;> try cases step
    next call current =>
      split at step <;> cases step
      next stages => exact .finish current stages
  | _ => cases step

theorem transition_stepIdentify (step : node.stepIdentify cfg event = some next) :
    node.Transition cfg event next := by
  cases event with simp only [stepIdentify] at step
  | load id identity response =>
    split at step <;> cases step
    next free accepted => exact .load free accepted
  | addSession id ref =>
    split at step
    · next call current =>
      split_ifs at step with legal
      cases step
      exact .addSession current legal.1 legal.2.1 legal.2.2
    · cases step
  | retainSnapshots id =>
    split at step <;> try cases step
    next call current =>
      split at step <;> cases step
      next ref phase => exact .retain current phase
  | ready id payload moments =>
    split at step <;> try cases step
    next call current =>
      split at step <;> try cases step
      next ref phase =>
        split at step <;> try cases step
        next session held =>
          split_ifs at step with overflow
          · cases step
            exact .fail current phase rfl
          · cases step
            exact .ready current phase held (Bool.eq_false_iff.mpr overflow)
  | fail id =>
    split at step <;> try cases step
    next call current =>
      split at step <;> cases step
      next ref phase => exact .fail current phase rfl
  | unbind id =>
    split at step <;> try cases step
    next call current =>
      split at step <;> cases step
      next ref phase => exact .unbind current phase
  | unregister id =>
    split at step <;> try cases step
    next call current =>
      split at step <;> cases step
      next ref guildIDs phase => exact .unregister current phase
  | release id =>
    split at step <;> try cases step
    next call current =>
      split at step <;> cases step
      next phase => exact .release current phase
  | _ => cases step

theorem transition_stepServer (step : node.stepServer cfg event = some next) :
    node.Transition cfg event next := by
  cases event with
  | commit guildID => cases step; exact .commit
  | install userID guildID generation snapshot => cases step; exact .install
  | rotate now => cases step; exact .rotate
  | cleanup now => cases step; exact .cleanup
  | touch ref ran =>
    simp only [stepServer] at step
    split at step <;> cases step
    next ordinary => exact .touch ordinary
  | discard ref guildIDs =>
    simp only [stepServer] at step
    split at step
    · next session held =>
      split_ifs at step with initializing
      cases step
      exact .discard held (Bool.eq_false_iff.mpr initializing)
    · cases step
  | _ => cases step

theorem transition_step (step : (dispatchMachine cfg).step node event = some next) :
    node.Transition cfg event next := by
  cases event with
  | dispatch | list | run | check | offer | finish => exact transition_stepDispatch step
  | load | addSession | retainSnapshots | ready | fail | unbind | unregister | release =>
    exact transition_stepIdentify step
  | _ => exact transition_stepServer step

/-! ## What the stages of a call do -/

/-- The call is the same one, some stages later. -/
structure SameCall (call moved : DispatchCall) : Prop where
  route : moved.route = call.route
  event : moved.event = call.event
  revision : moved.revision = call.revision
  number : moved.number = call.number

/-- What a stage does to the registry; the stages of membership are the only ones that touch it. -/
inductive StageEffect (reg : Registry) (guildID : ℤ) : Stage → Registry → Prop
  | none {plain} : StageEffect reg guildID plain reg
  | join {ref} : StageEffect reg guildID (.join ref) (reg.modify ref (LogicalSession.joinGuild guildID))
  | index {ref} :
      StageEffect reg guildID (.index ref) { reg with guilds := Registry.addIndex reg.guilds guildID ref }
  | leave {ref} : StageEffect reg guildID (.leave ref) (reg.modify ref (LogicalSession.leaveGuild guildID))
  | unindex {ref} :
      StageEffect reg guildID (.unindex ref) { reg with guilds := Registry.removeIndex reg.guilds guildID ref }
  | dropIndex : StageEffect reg guildID .dropIndex { reg with guilds := reg.guilds.dropKey guildID }

variable {id : ℕ} {call : DispatchCall} {stage : Stage} {rest : List Stage} {now : ℤ}

variable {route : DispatchRoute} {envelope : EventEnvelope} {now : ℤ}

theorem request_of_isNew (new : node.IsNew route envelope now) (id revision : ℕ) :
    node.request id route envelope revision now = { node with
      dedup := (node.dedup.checkAndAdd now route.kind (Int64.ofInt route.id)
        (Int64.ofInt envelope.idempotencyKey) envelope.type dedupTTL).1
      requests := node.requests + 1
      started := (route, envelope) :: node.started
      calls := node.calls.set id
        { route, event := envelope, revision, stages := route.stages envelope, number := node.requests } } :=
  if_pos new

theorem request_of_not_isNew (known : ¬ node.IsNew route envelope now) (id revision : ℕ) :
    node.request id route envelope revision now = { node with
      dedup := (node.dedup.checkAndAdd now route.kind (Int64.ofInt route.id)
        (Int64.ofInt envelope.idempotencyKey) envelope.type dedupTTL).1
      answered := (route, envelope) :: node.answered } :=
  if_neg known

/-- A request writes the deduplication store, and starts a call when the event is new. -/
theorem request_eq (node : DispatchNode) (id : ℕ) (route : DispatchRoute) (envelope : EventEnvelope) (revision : ℕ) (now : ℤ) :
    ∃ dedup requests started answered calls,
      node.request id route envelope revision now = { node with dedup, requests, started, answered, calls } ∧
      (calls = node.calls ∨ calls = node.calls.set id
        { route, event := envelope, revision, stages := route.stages envelope, number := node.requests }) := by
  by_cases new : node.IsNew route envelope now
  · exact ⟨_, _, _, _, _, request_of_isNew new id revision, .inr rfl⟩
  · exact ⟨_, _, _, _, _, request_of_not_isNew new id revision, .inl rfl⟩

/-- A stage writes its own call and the stores, and goes on with the rest or gives the call up. -/
theorem runStage_eq_some (ran : node.runStage id call rest now stage = some next) :
    ∃ reg users dedup watermarks accepted answered moved,
      next = { node with
        reg, users, dedup, watermarks, accepted, answered, calls := node.calls.set id moved } ∧
      SameCall call moved ∧ moved.stages ⊆ rest ∧ StageEffect node.reg call.guildID stage reg ∧
      (dedup = node.dedup ∨ dedup = node.dedup.remove call.route.kind (Int64.ofInt call.route.id)
        (Int64.ofInt call.event.idempotencyKey) call.event.type) ∧
      answered ⊆ (call.route, call.event) :: node.answered := by
  have more : node.answered ⊆ (call.route, call.event) :: node.answered := subset_cons_self ..
  cases stage with
  | forget =>
    cases ran
    exact ⟨_, _, _, _, _, _, _, rfl, ⟨rfl, rfl, rfl, rfl⟩, Subset.refl _, .none, .inr rfl, more⟩
  | invalidate | view | clearRemoved | clear =>
    cases ran
    exact ⟨_, _, _, _, _, _, _, rfl, ⟨rfl, rfl, rfl, rfl⟩, Subset.refl _, .none, .inl rfl, more⟩
  | accept key sequence =>
    simp only [runStage] at ran
    split_ifs at ran
    · cases ran
      exact ⟨_, _, _, _, _, _, _, rfl, ⟨rfl, rfl, rfl, rfl⟩, Subset.refl _, .none, .inl rfl, Subset.refl _⟩
    · cases ran
      exact ⟨_, _, _, _, _, _, _, rfl, ⟨rfl, rfl, rfl, rfl⟩, nil_subset _, .none, .inl rfl, Subset.refl _⟩
  | join | index | leave | unindex | dropIndex =>
    cases ran
    exact ⟨_, _, _, _, _, _, _, rfl, ⟨rfl, rfl, rfl, rfl⟩, Subset.refl _, by constructor, .inl rfl, more⟩
  | deliver gate jobs queue =>
    cases jobs with
    | nil =>
      cases queue with
      | nil =>
        cases ran
        exact ⟨_, _, _, _, _, _, _, rfl, ⟨rfl, rfl, rfl, rfl⟩, Subset.refl _, .none, .inl rfl, more⟩
      | cons => cases ran
    | cons => cases ran
  | _ => cases ran

variable {jobs : List (ℤ × List SessionRef)} {queue : List Offer}

/-- A delivery is over when nothing is left to hand out. -/
theorem runStage_deliver {gate : Gate}
    (ran : node.runStage id call rest now (.deliver gate jobs queue) = some next) : jobs = [] ∧ queue = [] := by
  cases jobs with
  | nil =>
    cases queue with
    | nil => exact ⟨rfl, rfl⟩
    | cons => cases ran
  | cons => cases ran

/-- A check moves the job of one user into the queue, or withholds the event from the user. -/
theorem checkUser_eq_some {gate : Gate}
    {userID : ℤ} {refs : List SessionRef} {visibility : Except Status VisibilitySnapshot}
    (checked : node.checkUser id call gate jobs queue rest userID refs visibility now = some next) :
    ∃ users dedup withheld offers,
      next = { node with
        users, dedup, withheld
        calls := node.calls.set id { call with
          stages := .deliver gate (jobs.filter fun job => decide (job.1 ≠ userID)) (queue ++ offers) ::
            rest } } ∧
      node.withheld ⊆ withheld ∧ (offers = call.offers refs ∨ (call.number, userID) ∈ withheld) ∧
      (dedup = node.dedup ∨ ∃ kind, gate = .once kind ∧ dedup = (node.dedup.checkAndAdd now kind
        (Int64.ofInt userID) (Int64.ofInt call.event.idempotencyKey) call.event.type dedupTTL).1) := by
  have later : node.withheld ⊆ (call.number, userID) :: node.withheld := subset_cons_self ..
  cases gate with
  | all => cases checked
  | once kind =>
    simp only [checkUser, Option.some.injEq] at checked
    split_ifs at checked
    · cases checked
      exact ⟨_, _, _, _, rfl, Subset.refl _, .inl rfl, .inr ⟨kind, rfl, rfl⟩⟩
    · cases checked
      exact ⟨_, _, _, _, rfl, later, .inr mem_cons_self, .inr ⟨kind, rfl, rfl⟩⟩
  | visible channelID | access channelID =>
    simp only [checkUser] at checked
    split at checked
    · cases checked
      exact ⟨_, _, _, _, rfl, later, .inr mem_cons_self, .inl rfl⟩
    · simp only [Option.some.injEq] at checked
      split_ifs at checked
      · cases checked
        exact ⟨_, _, _, _, rfl, Subset.refl _, .inl rfl, .inl rfl⟩
      · cases checked
        exact ⟨_, _, _, _, rfl, later, .inr mem_cons_self, .inl rfl⟩

/-- What a listing stage records: the listing of a route, a detachment, or nothing. -/
inductive ListEffect (node : DispatchNode) (call : DispatchCall) :
    Stage → List Listing → List (ℤ × Option ℤ) → Prop
  | sessions {gate} :
      ListEffect node call (.sessions gate)
        (⟨call.number, call.route, call.event, call.revision, node.detached, node.discarded⟩ :: node.listed)
        node.detached
  | detachGuildUser {userID} :
      ListEffect node call (.detachGuildUser userID) node.listed
        ((call.guildID, some userID) :: node.detached)
  | detachGuild : ListEffect node call .detachGuild node.listed ((call.guildID, none) :: node.detached)
  | other {plain} (quiet : ∀ order, ∀ next ∈ call.expand node.reg order plain, next.isRemoval = false) :
      ListEffect node call plain node.listed node.detached

theorem list_eq {set : Finset SessionRef} (id : ℕ) (rest : List Stage) (order : List SessionRef)
    (lists : call.lists node.reg stage = some set) :
    ∃ listed detached,
      node.list id call stage rest order = { node with
        listed, detached
        calls := node.calls.set id { call with stages := call.expand node.reg order stage ++ rest } } ∧
      ListEffect node call stage listed detached := by
  cases stage with
  | sessions gate => exact ⟨_, _, rfl, .sessions⟩
  | detachGuildUser userID => exact ⟨_, _, rfl, .detachGuildUser⟩
  | detachGuild => exact ⟨_, _, rfl, .detachGuild⟩
  | attachGuildUser userID =>
    refine ⟨_, _, rfl, .other fun order next member => ?_⟩
    simp only [DispatchCall.expand, mem_append, mem_flatMap, mem_cons, not_mem_nil,
      or_false] at member
    rcases member with ⟨_, _, rfl | rfl⟩ | last
    · rfl
    · rfl
    · split_ifs at last
      · cases last
      · cases mem_singleton.mp last
        rfl
  | invalidateGuild userID =>
    refine ⟨_, _, rfl, .other fun order next member => ?_⟩
    obtain ⟨_, _, rfl⟩ := mem_map.mp member
    rfl
  | viewers channelID =>
    refine ⟨_, _, rfl, .other fun order next member => ?_⟩
    simp only [DispatchCall.expand] at member
    split_ifs at member
    · cases member
    · obtain ⟨_, _, rfl⟩ := mem_map.mp member
      rfl
  | _ => cases lists

/-- A step of a dispatch call leaves the `identify` calls alone; only listings are recorded, and only the
stages of the call and what it hands out touch the registry. -/
structure Dispatching (node : DispatchNode) (event : DispatchEvent) (next : DispatchNode) : Prop where
  identifies : next.identifies = node.identifies
  identified : next.identified = node.identified
  committed : next.committed = node.committed
  listed : event.listing = none → next.listed = node.listed
  reg : (∀ id now, event ≠ .run id now) → (∀ id ref moment, event ≠ .offer id ref moment) → next.reg = node.reg

theorem dispatching_transition (transition : node.Transition cfg event next) (dispatch : event.call ≠ none) :
    node.Dispatching event next := by
  cases transition with
  | @dispatch id route envelope revision now =>
    obtain ⟨_, _, _, _, _, requested, _⟩ := request_eq node id route envelope revision now
    rw [requested]
    exact ⟨rfl, rfl, rfl, fun _ => rfl, fun _ _ => rfl⟩
  | list current stages lists =>
    obtain ⟨_, _, listed, _⟩ := list_eq _ _ _ lists
    rw [listed]
    exact ⟨rfl, rfl, rfl, nofun, fun _ _ => rfl⟩
  | run current stages ran =>
    obtain ⟨_, _, _, _, _, _, _, rfl, _⟩ := runStage_eq_some ran
    exact ⟨rfl, rfl, rfl, fun _ => rfl, fun stage => (stage _ _ rfl).elim⟩
  | check current stages job checked =>
    obtain ⟨_, _, _, _, rfl, _⟩ := checkUser_eq_some checked
    exact ⟨rfl, rfl, rfl, fun _ => rfl, fun _ _ => rfl⟩
  | offer => exact ⟨rfl, rfl, rfl, fun _ => rfl, fun _ handed => (handed _ _ _ rfl).elim⟩
  | finish => exact ⟨rfl, rfl, rfl, fun _ => rfl, fun _ _ => rfl⟩
  | fail _ _ identifying => exact (dispatch identifying).elim
  | _ => exact (dispatch rfl).elim

theorem heap_onSession (ref other : SessionRef) (ran : SessionEvent) :
    (node.onSession cfg ref ran).reg.heap other =
      if other = ref then (node.reg.heap ref).map (stepSession cfg · ran) else node.reg.heap other :=
  Registry.heap_modify _

theorem frames_onSession (cfg : NodeConfig) {ref : SessionRef} {session : LogicalSession}
    (held : node.reg.heap ref = some session) (ran : SessionEvent) :
    (node.onSession cfg ref ran).frames ref = node.frames ref ++ owed cfg session ran := by
  simp [onSession, held]

end DispatchNode

end Cordis.Session
