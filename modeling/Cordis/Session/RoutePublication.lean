import Cordis.Session.Registry

/-! # Published routes and the order of route snapshots

`refreshAllRoutes` takes its snapshot under `s.mu` and publishes it later under `routeMu`. A
publication detaches what the snapshot does not list, so it must not be older than what has been
published before it. If publications begin in the order their snapshots were taken, a route that
stays indexed from one snapshot on is in every later snapshot, and no publication takes it out
again. Nothing in the code enforces that order: two callers may lock `routeMu` the other way round.
-/

namespace Cordis.Session

open RegistryNode Option

/-- Some session is indexed under the route. -/
def IndexedUnder (reg : Registry) : Route → Prop
  | ⟨.user, id⟩ => (reg.users.members id).Nonempty
  | ⟨.guild, id⟩ => (reg.guilds.members id).Nonempty

instance (reg : Registry) : ∀ route, Decidable (IndexedUnder reg route)
  | ⟨.user, id⟩ => inferInstanceAs (Decidable (reg.users.members id).Nonempty)
  | ⟨.guild, id⟩ => inferInstanceAs (Decidable (reg.guilds.members id).Nonempty)

/-- A snapshot lists every route some session is indexed under. -/
theorem routeSnapshot_of_indexed {reg : Registry} {route : Route} (indexed : IndexedUnder reg route) :
    routeSnapshot reg route = true := by
  have present : ∀ {index : SetIndex ℤ SessionRef} {id : ℤ}, (index.members id).Nonempty →
      (index id).isSome = true := by
    intro index id nonempty
    obtain ⟨ref, member⟩ := nonempty
    obtain ⟨set, held, _⟩ := SetIndex.has_iff_mem_members.mpr member
    exact isSome_iff_exists.mpr ⟨set, held⟩
  match route with
  | ⟨.user, _⟩ => exact present indexed
  | ⟨.guild, _⟩ => exact present indexed

namespace Task

/-- The route snapshot an operation is going to publish, with its number. -/
def snapshot : Task → Option (RouteSet × ℕ)
  | .publish active number => some (active, number)
  | .publishing active number => some (active, number)
  | _ => none

end Task

/-- The step is not a store call that fails. -/
def StoreSucceeds : RegistryEvent → Prop
  | .detachRoutes _ failure => failure = none
  | .refreshRoutes _ failure => failure = none
  | _ => True

instance : ∀ event, Decidable (StoreSucceeds event)
  | .detachRoutes _ failure => inferInstanceAs (Decidable (failure = none))
  | .refreshRoutes _ failure => inferInstanceAs (Decidable (failure = none))
  | .addSession .. | .removeSession .. | .attachGuildUser .. | .detachGuildUser .. | .detachGuild ..
  | .refreshAllRoutes .. | .advance .. => isTrue trivial

namespace RegistryNode

/-- A publication that begins is not older than one that began before it. -/
def InOrder (node : RegistryNode) : RegistryEvent → Prop
  | .detachRoutes id _ => ∀ task ∈ node.tasks id, ∀ taken ∈ task.snapshot, node.latest ≤ taken.2
  | _ => True

instance (node : RegistryNode) : ∀ event, Decidable (node.InOrder event)
  | .detachRoutes id _ => inferInstanceAs (Decidable (∀ task ∈ node.tasks id, _))
  | .addSession .. | .removeSession .. | .attachGuildUser .. | .detachGuildUser .. | .detachGuild ..
  | .refreshAllRoutes .. | .advance .. | .refreshRoutes .. => isTrue trivial

/-! ## What a step does to tasks and routes -/

variable {node next : RegistryNode} {event : RegistryEvent}

/-- The tasks after a step: unchanged, without a snapshot, with the snapshot just taken, or moved
from the start of a publication into it. -/
inductive Became (node next : RegistryNode) (id : ℕ) : Task → Prop
  | unchanged {task} (before : node.tasks id = some task) : Became node next id task
  | plain {task} (none : task.snapshot = none) : Became node next id task
  | taken (number : next.snapshots = node.snapshots + 1) :
      Became node next id (.publish (routeSnapshot node.reg) (node.snapshots + 1))
  | locked {active number} (before : node.tasks id = some (.publish active number))
      (latest : next.latest = number) : Became node next id (.publishing active number)

/-- What a step does to the routes, the counters, and the tasks. -/
structure StepShape (node next : RegistryNode) : Prop where
  snapshots : node.snapshots ≤ next.snapshots
  tasks : next.tasks.All fun id task => Became node next id task

variable {id since : ℕ} {task : Task} {route : Route}

theorem stepShape_set (snapshots : node.snapshots ≤ next.snapshots)
    (tasks : next.tasks = node.tasks.set id task) (became : Became node next id task) :
    StepShape node next := by
  refine ⟨snapshots, ?_⟩
  rw [tasks]
  exact Pool.All.set_of became fun other found _ before => .unchanged before

theorem stepShape_drop (snapshots : node.snapshots ≤ next.snapshots)
    (tasks : next.tasks = node.tasks.drop id) : StepShape node next := by
  refine ⟨snapshots, ?_⟩
  rw [tasks]
  exact Pool.All.drop (fun other found before => .unchanged before) id

/-- The step leaves the published routes, the store, and the publication order alone. -/
structure Quiet (node next : RegistryNode) : Prop extends StepShape node next where
  stored : next.stored = node.stored
  publishedRoutes : next.publishedRoutes = node.publishedRoutes
  latest : next.latest = node.latest

theorem quiet_begin {reg : Registry} (plain : task.snapshot = none)
    (step : begin { node with reg } id task = some next) : Quiet node next := by
  unfold begin at step
  split at step
  · cases step
  · cases step
    exact ⟨stepShape_set le_rfl rfl (.plain plain), rfl, rfl, rfl⟩

theorem quiet_advance (step : node.advance id task = some next) : Quiet node next := by
  cases task with
  | remove session guildIDs =>
    simp only [advance] at step
    split_ifs at step <;> cases step
    · exact ⟨stepShape_set le_rfl rfl (.plain rfl), rfl, rfl, rfl⟩
    · exact ⟨stepShape_drop le_rfl rfl, rfl, rfl, rfl⟩
  | attach guildID sessions | detach guildID sessions | detachGuild guildID sessions =>
    cases sessions <;> cases step <;> exact ⟨stepShape_set le_rfl rfl (.plain rfl), rfl, rfl, rfl⟩
  | attachIndex | detachIndex => cases step; exact ⟨stepShape_set le_rfl rfl (.plain rfl), rfl, rfl, rfl⟩
  | refresh =>
    cases step
    exact ⟨stepShape_set (Nat.le_succ _) rfl (.taken rfl), rfl, rfl, rfl⟩
  | publish => cases step
  | publishing => cases step

/-- A step whose store call, if any, succeeds: quiet, or one of the two halves of a publication. -/
inductive Outcome (node : RegistryNode) : RegistryEvent → RegistryNode → Prop
  | quiet {event : RegistryEvent} {next : RegistryNode} (quiet : Quiet node next) : Outcome node event next
  | detach {id : ℕ} {active : RouteSet} {number : ℕ} (current : node.tasks id = some (.publish active number)) :
      Outcome node (.detachRoutes id none) (node.detachRoutes id none active number)
  | refresh {id : ℕ} {active : RouteSet} {number : ℕ} (current : node.tasks id = some (.publishing active number)) :
      Outcome node (.refreshRoutes id none) (node.refreshRoutes id none active)

theorem outcome_of_step (succeeds : StoreSucceeds event) (step : node.step event = some next) :
    Outcome node event next := by
  cases event with simp only [RegistryNode.step] at step
  | addSession ref session =>
    split_ifs at step
    cases step
    exact .quiet ⟨⟨le_rfl, fun _ _ before => .unchanged before⟩, rfl, rfl, rfl⟩
  | removeSession id session | refreshAllRoutes id => exact .quiet (quiet_begin rfl step)
  | attachGuildUser id guildID userID order =>
    split_ifs at step
    · cases step
      exact .quiet ⟨⟨le_rfl, fun _ _ before => .unchanged before⟩, rfl, rfl, rfl⟩
    · exact .quiet (quiet_begin rfl step)
  | detachGuildUser id guildID userID order | detachGuild id guildID order =>
    split_ifs at step
    exact .quiet (quiet_begin rfl step)
  | advance id =>
    obtain ⟨task, _, step⟩ := bind_eq_some_iff.mp step
    exact .quiet (quiet_advance step)
  | detachRoutes id failure =>
    cases succeeds
    split at step
    · next current =>
      split_ifs at step
      cases step
      exact .detach current
    · cases step
  | refreshRoutes id failure =>
    cases succeeds
    split at step
    · next current =>
      cases step
      exact .refresh current
    · cases step

theorem Outcome.shape (outcome : Outcome node event next) : StepShape node next := by
  cases outcome with
  | quiet quiet => exact quiet.toStepShape
  | detach current => exact stepShape_set le_rfl rfl (.locked current rfl)
  | refresh current => exact stepShape_drop le_rfl rfl

/-- Publications that begin in order move the counter of the last one forward. -/
theorem Outcome.latest_le (outcome : Outcome node event next) (inOrder : node.InOrder event) :
    node.latest ≤ next.latest := by
  cases outcome with
  | quiet quiet => exact quiet.latest.ge
  | detach current => exact inOrder _ current _ rfl
  | refresh current => exact le_rfl

/-! ## One route, from one snapshot on -/

/-- Every snapshot from number `since` on that waits to be published lists the route, the operation
`id` publishes nothing older, and none of them has begun its publication after the last one. -/
structure Carries (route : Route) (since id : ℕ) (node : RegistryNode) : Prop where
  counted : since ≤ node.snapshots
  listed : node.tasks.All fun _ task => ∀ active number, task.snapshot = some (active, number) →
    since ≤ number → active route = true
  recent : ∀ task active number, node.tasks id = some task → task.snapshot = some (active, number) →
    since ≤ number
  begun : node.tasks.All fun _ task => ∀ active number, task = .publishing active number →
    since ≤ number → number ≤ node.latest

theorem Carries.step (carries : Carries route since id node)
    (indexed : IndexedUnder node.reg route) (inOrder : node.InOrder event)
    (outcome : Outcome node event next) : Carries route since id next := by
  have shape := outcome.shape
  refine ⟨carries.counted.trans shape.snapshots, ?_, ?_, ?_⟩
  · intro other task present active number taken recent
    cases shape.tasks other task present with
    | unchanged before => exact carries.listed other task before active number taken recent
    | plain none => cases none.symm.trans taken
    | taken => cases taken; exact routeSnapshot_of_indexed indexed
    | locked before => cases taken; exact carries.listed other _ before active number rfl recent
  · intro task active number present taken
    cases shape.tasks id task present with
    | unchanged before => exact carries.recent task active number before taken
    | plain none => cases none.symm.trans taken
    | taken => cases taken; exact carries.counted.trans (Nat.le_succ _)
    | locked before => cases taken; exact carries.recent _ active number before rfl
  · intro other task present active number publishing recent
    cases shape.tasks other task present with
    | unchanged before =>
      exact (carries.begun other task before active number publishing recent).trans
        (outcome.latest_le inOrder)
    | plain none => subst publishing; cases none
    | taken => cases publishing
    | locked before latest => cases publishing; exact latest.ge

/-- The route is published, by a snapshot from number `since` on. -/
structure Published (route : Route) (since : ℕ) (node : RegistryNode) : Prop where
  recent : since ≤ node.latest
  stored : node.stored route = true
  published : node.publishedRoutes route = true

/-- The return of the operation publishes the route. -/
theorem Carries.published (carries : Carries route since id node)
    {active : RouteSet} {number : ℕ} (current : node.tasks id = some (.publishing active number)) :
    Published route since (node.refreshRoutes id none active) := by
  have recent := carries.recent _ active number current rfl
  have listed := carries.listed id _ current active number rfl recent
  refine ⟨recent.trans (carries.begun id _ current active number rfl recent), ?_, ?_⟩
  · simp [refreshRoutes, listed]
  · simp [refreshRoutes, listed]

theorem Published.step (published : Published route since node)
    (carries : Carries route since id node) (inOrder : node.InOrder event)
    (outcome : Outcome node event next) : Published route since next := by
  have latest := published.recent.trans (outcome.latest_le inOrder)
  cases outcome with
  | quiet quiet =>
    exact ⟨latest, quiet.stored ▸ published.stored, quiet.publishedRoutes ▸ published.published⟩
  | detach current =>
    -- the snapshot is at least as recent as the last one published, so it lists the route
    have listed := carries.listed _ _ current _ _ rfl latest
    refine ⟨latest, ?_, ?_⟩
    · simp [detachRoutes, published.stored, listed]
    · simp [detachRoutes, published.published, listed]
  | refresh current =>
    refine ⟨latest, ?_, ?_⟩
    · simp [refreshRoutes, published.stored]
    · simp [refreshRoutes, published.published]

/-- Numbers are given out in order. -/
def SnapshotsCounted (node : RegistryNode) : Prop :=
  node.tasks.All fun _ task => ∀ active number, task.snapshot = some (active, number) →
    number ≤ node.snapshots

theorem SnapshotsCounted.step (counted : SnapshotsCounted node) (outcome : Outcome node event next) :
    SnapshotsCounted next := by
  have shape := outcome.shape
  intro id task present active number taken
  cases shape.tasks id task present with
  | unchanged before => exact (counted id task before active number taken).trans shape.snapshots
  | plain none => cases none.symm.trans taken
  | taken count => cases taken; exact count.ge
  | locked before => cases taken; exact (counted id _ before active number rfl).trans shape.snapshots

/-- A snapshot taken while a session is indexed under the route carries it. -/
theorem carries_taken (counted : SnapshotsCounted node)
    (refreshing : node.tasks id = some .refresh) (indexed : IndexedUnder node.reg route)
    (step : node.step (.advance id) = some next) : Carries route (node.snapshots + 1) id next := by
  simp only [RegistryNode.step, refreshing, bind_some, RegistryNode.advance,
    some.injEq] at step
  subst step
  have old : ∀ other task, node.tasks other = some task → ∀ active number,
      task.snapshot = some (active, number) → ¬ node.snapshots + 1 ≤ number := by
    intro other task before active number taken recent
    have bound := counted other task before active number taken
    omega
  refine ⟨le_rfl, Pool.All.set_of ?_ ?_, ?_, Pool.All.set_of ?_ ?_⟩
  · intro active number taken _
    cases taken
    exact routeSnapshot_of_indexed indexed
  · exact fun other task _ before active number taken recent =>
      absurd recent (old other task before active number taken)
  · intro task active number present taken
    cases (Pool.set_self ..).symm.trans present
    cases taken
    exact le_rfl
  · intro active number publishing
    cases publishing
  · intro other task _ before active number publishing recent
    subst publishing
    exact absurd recent (old other _ before active number rfl)

end RegistryNode

/-- The route stays indexed and publications begin in the order of their snapshots. -/
def KeepsRoute (route : Route) (node : RegistryNode) (event : RegistryEvent) : Prop :=
  IndexedUnder node.reg route ∧ StoreSucceeds event ∧ node.InOrder event
deriving Decidable

open RegistryNode in
/-- Take a refresh whose snapshot was taken while a session was indexed under the route, and which
has returned. As long as some session is still indexed under the route, store calls succeed and
publications begin in the order of their snapshots, the route is in the store and is recorded as
published. -/
theorem route_published_while_indexed {route : Route} {id : ℕ} {before during after : List RegistryEvent}
    {node taken final : RegistryNode} (reached : registryMachine.run {} before = some node)
    (stored : registryMachine.Along (fun _ event => StoreSucceeds event) {} before)
    (refreshing : node.tasks id = some .refresh) (indexed : IndexedUnder node.reg route)
    (snapshot : node.step (.advance id) = some taken)
    (later : registryMachine.run taken (during ++ .refreshRoutes id none :: after) = some final)
    (kept : registryMachine.Along (KeepsRoute route) taken (during ++ .refreshRoutes id none :: after)) :
    final.stored route = true ∧ final.publishedRoutes route = true := by
  have counted : SnapshotsCounted node :=
    Machine.invariant_along (fun _ _ _ counted succeeds step => counted.step (outcome_of_step succeeds step))
      reached stored (Pool.all_empty _)
  have carried : ∀ s e t, Carries route (node.snapshots + 1) id s → KeepsRoute route s e →
      registryMachine.step s e = some t → Carries route (node.snapshots + 1) id t :=
    fun _ _ _ carries keeps step => carries.step keeps.1 keeps.2.2 (outcome_of_step keeps.2.1 step)
  obtain ⟨returning, waiting, finish⟩ := Machine.run_append_eq_some.mp later
  obtain ⟨keptBefore, keptAfter⟩ := (Machine.along_append waiting).mp kept
  have carries := Machine.invariant_along carried waiting keptBefore
    (carries_taken counted refreshing indexed snapshot)
  obtain ⟨returned, returns, finish⟩ := Machine.run_cons_eq_some.mp finish
  obtain ⟨keeps, keptAfter⟩ := (Machine.along_cons returns).mp keptAfter
  have published : Published route (node.snapshots + 1) returned := by
    change returning.step (.refreshRoutes id none) = some returned at returns
    simp only [RegistryNode.step] at returns
    split at returns
    · next current =>
      cases returns
      exact carries.published current
    · cases returns
  obtain ⟨_, done⟩ := @Machine.invariant_along _ _ _ _
    (fun node' => Carries route (node.snapshots + 1) id node' ∧ Published route (node.snapshots + 1) node')
    (fun s e t held keeps step => ⟨carried s e t held.1 keeps step,
      held.2.step held.1 keeps.2.2 (outcome_of_step keeps.2.1 step)⟩)
    _ _ _ finish keptAfter ⟨carried _ _ _ carries keeps returns, published⟩
  exact ⟨done.stored, done.published⟩

/-- One refresh publishes the route of a new session, and a second one, with a later snapshot,
publishes it again. -/
theorem ordered_refreshes_keep_route :
    ∃ node taken final,
      registryMachine.run {}
        [.addSession 0 (newSession {} "sess-1" 1001 2001 "conn-1" "gw-1" "gen-1" {30}),
          .refreshAllRoutes 0] = some node ∧
      node.step (.advance 0) = some taken ∧
      registryMachine.run taken ([.refreshAllRoutes 1, .advance 1, .detachRoutes 0 none] ++
        .refreshRoutes 0 none :: [.detachRoutes 1 none]) = some final ∧
      final.stored ⟨.user, 1001⟩ = true ∧ final.publishedRoutes ⟨.user, 1001⟩ = true := by
  refine ⟨_, _, _, rfl, rfl, rfl, ?_⟩
  exact @route_published_while_indexed ⟨.user, 1001⟩ 0
    [.addSession 0 (newSession {} "sess-1" 1001 2001 "conn-1" "gw-1" "gen-1" {30}), .refreshAllRoutes 0]
    [.refreshAllRoutes 1, .advance 1, .detachRoutes 0 none] [.detachRoutes 1 none] _ _ _
    rfl (by decide) rfl (by decide) rfl rfl (by decide)

/-- A refresh takes its snapshot before a session is added and publishes it after a refresh with a
newer snapshot has returned. It detaches the route of a session that is still indexed. -/
theorem older_snapshot_detaches_route :
    ∃ node taken final,
      registryMachine.run {}
        [.refreshAllRoutes 1, .advance 1,
          .addSession 0 (newSession {} "sess-1" 1001 2001 "conn-1" "gw-1" "gen-1" {30}),
          .refreshAllRoutes 0] = some node ∧
      registryMachine.Along (fun _ event => StoreSucceeds event) {}
        [.refreshAllRoutes 1, .advance 1,
          .addSession 0 (newSession {} "sess-1" 1001 2001 "conn-1" "gw-1" "gen-1" {30}),
          .refreshAllRoutes 0] ∧
      node.tasks 0 = some .refresh ∧ IndexedUnder node.reg ⟨.user, 1001⟩ ∧
      node.step (.advance 0) = some taken ∧
      registryMachine.run taken ([.detachRoutes 0 none] ++
        .refreshRoutes 0 none :: [.detachRoutes 1 none, .refreshRoutes 1 none]) = some final ∧
      registryMachine.Along (fun node event => IndexedUnder node.reg ⟨.user, 1001⟩ ∧ StoreSucceeds event)
        taken ([.detachRoutes 0 none] ++
          .refreshRoutes 0 none :: [.detachRoutes 1 none, .refreshRoutes 1 none]) ∧
      IndexedUnder final.reg ⟨.user, 1001⟩ ∧
      final.stored ⟨.user, 1001⟩ = false ∧ final.publishedRoutes ⟨.user, 1001⟩ = false := by
  exact ⟨_, _, _, rfl, by decide, rfl, by decide, rfl, rfl, by decide, by decide, by decide, by decide⟩

end Cordis.Session
