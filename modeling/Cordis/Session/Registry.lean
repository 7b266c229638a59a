import Cordis.Machine.Run
import Cordis.Machine.Pool
import Cordis.Machine.SetIndex
import Cordis.Session.State

/-! # The session registry of a node and the routes it publishes

A node keeps three maps under `s.mu`: sessions by id, and the sets of sessions indexed under each
user and each guild. A session additionally carries its own guild set under `session.mu`. Sessions
are Go pointers, so the indexes hold addresses into a heap of sessions.

None of the five operations takes both locks at once. Each is a sequence of critical sections, and
a `Task` is an operation stopped between two of them. Every operation that changes the indexes ends
with `refreshAllRoutes`, which takes a snapshot of the indexed routes under `s.mu` and publishes it
under `routeMu`, in two calls to the store. Snapshots are numbered in the order they are taken;
the numbers are for stating properties and no step reads them.
-/

namespace Cordis.Session

open Pool

/-- The address of a logical session. -/
abbrev SessionRef := ℕ

structure Registry where
  heap : Pool SessionRef LogicalSession := Pool.empty
  sessions : Pool String SessionRef := Pool.empty
  users : SetIndex ℤ SessionRef := SetIndex.empty
  guilds : SetIndex ℤ SessionRef := SetIndex.empty

namespace Registry

def addIndex (index : SetIndex ℤ SessionRef) (id : ℤ) (session : SessionRef) : SetIndex ℤ SessionRef :=
  index.add id session

def removeIndex (index : SetIndex ℤ SessionRef) (id : ℤ) (session : SessionRef) :
    SetIndex ℤ SessionRef :=
  index.remove id session

variable (reg : Registry) (ref : SessionRef)

/-- The section of `addSession` under `s.mu`, for a session allocated at `ref`. -/
def addSession (session : LogicalSession) : Registry where
  heap := reg.heap.set ref session
  sessions := reg.sessions.set session.id ref
  users := addIndex reg.users session.userID ref
  guilds := reg.guilds.addAll session.guilds ref

/-- The session at the address, if it is the one registered under its id. -/
def live : Option LogicalSession :=
  match reg.heap ref with
  | none => none
  | some session => if reg.sessions session.id = some ref then some session else none

/-- The section of `removeSession` under `s.mu`, with the guild ids copied by the section before
it. A session that is no longer the registered one is left alone. -/
def unregister (guildIDs : Finset ℤ) : Registry :=
  match reg.live ref with
  | none => reg
  | some session =>
    { reg with
      sessions := reg.sessions.drop session.id
      users := removeIndex reg.users session.userID ref
      guilds := reg.guilds.removeAll guildIDs ref }

/-- A section under `session.mu`. -/
def modify (f : LogicalSession → LogicalSession) : Registry :=
  match reg.heap ref with
  | none => reg
  | some session => { reg with heap := reg.heap.set ref (f session) }

/-- The guild set a session carries. -/
def guildsOf : Finset ℤ :=
  (reg.heap ref).elim ∅ LogicalSession.guilds

/-- The registered session belongs to the user. -/
def BelongsTo (userID : ℤ) : Prop :=
  ∃ session ∈ reg.live ref, session.userID = userID

/-- The session is registered and carries the guild. -/
def Joined (guildID : ℤ) : Prop :=
  ∃ session ∈ reg.live ref, guildID ∈ session.guilds
deriving Decidable

/-- The user index says exactly which registered session belongs to whom. -/
def UsersExact : Prop :=
  ∀ userID ref, reg.users.Has userID ref ↔ reg.BelongsTo ref userID

/-- Both indexes say exactly what the registered sessions say, and hold no empty set. -/
structure Consistent (reg : Registry) : Prop where
  users : reg.UsersExact
  guilds : ∀ guildID ref, reg.guilds.Has guildID ref ↔ reg.Joined ref guildID
  usersTight : reg.users.Tight
  guildsTight : reg.guilds.Tight

end Registry

def LogicalSession.joinGuild (guildID : ℤ) (session : LogicalSession) : LogicalSession :=
  { session with guilds := insert guildID session.guilds }

def LogicalSession.leaveGuild (guildID : ℤ) (session : LogicalSession) : LogicalSession :=
  { session with guilds := session.guilds.erase guildID }

/-! ## The registered sessions after each section -/

namespace Registry

variable {reg : Registry} {ref other : SessionRef}

variable {session : LogicalSession}

theorem live_eq_some :
    reg.live ref = some session ↔ reg.heap ref = some session ∧ reg.sessions session.id = some ref := by
  unfold live
  cases reg.heap ref with
  | none => simp
  | some found =>
    simp only [Option.ite_none_right_eq_some, Option.some.injEq]
    constructor
    · rintro ⟨registered, rfl⟩
      exact ⟨rfl, registered⟩
    · rintro ⟨rfl, registered⟩
      exact ⟨registered, rfl⟩

theorem heap_addSession :
    (reg.addSession ref session).heap other = if other = ref then some session else reg.heap other := by
  split_ifs with same
  · subst same
    exact set_self ..
  · exact set_of_ne _ same _

theorem live_addSession (unused : reg.sessions session.id = none) :
    (reg.addSession ref session).live other = if other = ref then some session else reg.live other := by
  split_ifs with same
  · subst same
    rw [live_eq_some]
    simp [addSession, set_self]
  · simp only [live, addSession, set_of_ne _ same]
    cases found : reg.heap other with
    | none => rfl
    | some held =>
      by_cases sameID : held.id = session.id
      · -- the id was free, so the other session was not registered under it
        simp [sameID, unused, Ne.symm same]
      · simp only [set_of_ne _ sameID]

theorem live_unregister (guildIDs : Finset ℤ) :
    (reg.unregister ref guildIDs).live other = if other = ref then none else reg.live other := by
  unfold unregister
  cases present : reg.live ref with
  | none =>
    split_ifs with same
    · rw [same, present]
    · rfl
  | some session =>
    obtain ⟨held, registered⟩ := live_eq_some.mp present
    split_ifs with same
    · subst same
      simp [live, held]
    · simp only [live]
      cases found : reg.heap other with
      | none => rfl
      | some member =>
        by_cases sameID : member.id = session.id
        · simp [sameID, registered, Ne.symm same]
        · simp only [drop_of_ne _ sameID]

theorem heap_modify (f : LogicalSession → LogicalSession) :
    (reg.modify ref f).heap other = if other = ref then (reg.heap ref).map f else reg.heap other := by
  unfold modify
  split_ifs with same
  · subst same
    cases held : reg.heap other with
    | none => exact held
    | some session => exact set_self ..
  · cases reg.heap ref with
    | none => rfl
    | some session => exact set_of_ne _ same _

variable {f : LogicalSession → LogicalSession}

theorem live_modify (sameID : ∀ session, (f session).id = session.id) :
    (reg.modify ref f).live other = if other = ref then (reg.live ref).map f else reg.live other := by
  unfold modify
  cases held : reg.heap ref with
  | none =>
    split_ifs with same
    · subst same
      simp [live, held]
    · rfl
  | some session =>
    split_ifs with same
    · subst same
      simp only [live, held, set_self, sameID]
      split_ifs <;> rfl
    · simp only [live, set_of_ne _ same]

variable {userID : ℤ}

theorem belongsTo_addSession (unused : reg.sessions session.id = none)
    : (reg.addSession ref session).BelongsTo other userID ↔
      if other = ref then session.userID = userID else reg.BelongsTo other userID := by
  rw [BelongsTo, live_addSession unused]
  split_ifs
  · simp
  · rfl

variable {guildID : ℤ}

theorem joined_addSession (unused : reg.sessions session.id = none)
    : (reg.addSession ref session).Joined other guildID ↔
      if other = ref then guildID ∈ session.guilds else reg.Joined other guildID := by
  rw [Joined, live_addSession unused]
  split_ifs
  · simp
  · rfl

theorem belongsTo_unregister {guildIDs : Finset ℤ} :
    (reg.unregister ref guildIDs).BelongsTo other userID ↔ other ≠ ref ∧ reg.BelongsTo other userID := by
  rw [BelongsTo, live_unregister]
  split_ifs with same
  · simp [same]
  · simp [same, BelongsTo]

theorem joined_unregister {guildIDs : Finset ℤ} :
    (reg.unregister ref guildIDs).Joined other guildID ↔ other ≠ ref ∧ reg.Joined other guildID := by
  rw [Joined, live_unregister]
  split_ifs with same
  · simp [same]
  · simp [same, Joined]

section

variable {f : LogicalSession → LogicalSession} (sameID : ∀ session, (f session).id = session.id)

include sameID

theorem belongsTo_modify (sameUser : ∀ session, (f session).userID = session.userID) :
    (reg.modify ref f).BelongsTo other userID ↔ reg.BelongsTo other userID := by
  rw [BelongsTo, live_modify sameID]
  split_ifs with same
  · subst same
    simp [BelongsTo, sameUser]
  · rfl

/-- A section that keeps the id of its session changes which guilds are joined only as it changes
the session's own set. -/
theorem joined_modify : (reg.modify ref f).Joined other guildID ↔
      ∃ session ∈ reg.live other, guildID ∈ (if other = ref then f session else session).guilds := by
  rw [Joined, live_modify sameID]
  split_ifs with same
  · subst same
    simp
  · rfl

end

@[simp] theorem modify_users (f : LogicalSession → LogicalSession) : (reg.modify ref f).users = reg.users := by
  unfold modify
  split <;> rfl

@[simp] theorem modify_guilds (f : LogicalSession → LogicalSession) : (reg.modify ref f).guilds = reg.guilds := by
  unfold modify
  split <;> rfl

theorem users_unregister (present : reg.live ref = some session) (guildIDs : Finset ℤ) :
    (reg.unregister ref guildIDs).users = reg.users.remove session.userID ref := by
  simp only [unregister, present, removeIndex]

theorem guilds_unregister (present : reg.live ref = some session) (guildIDs : Finset ℤ) :
    (reg.unregister ref guildIDs).guilds = reg.guilds.removeAll guildIDs ref := by
  simp only [unregister, present]

/-! The user index is exact at all times: registration and its index entry change in one section. -/

namespace UsersExact

theorem empty : UsersExact {} := by
  refine fun _ _ => ⟨?_, ?_⟩
  · rintro ⟨_, ⟨⟩, _⟩
  · rintro ⟨_, ⟨⟩, _⟩

theorem addSession (exact : reg.UsersExact) {session : LogicalSession} (fresh : reg.heap ref = none)
    (unused : reg.sessions session.id = none) : (reg.addSession ref session).UsersExact := by
  intro userID other
  have homeless : ¬ reg.BelongsTo ref userID := by simp [BelongsTo, live, fresh]
  have added : (reg.addSession ref session).users.Has userID other ↔
      reg.BelongsTo other userID ∨ (userID = session.userID ∧ other = ref) :=
    SetIndex.has_add.trans (or_congr_left (exact userID other))
  rw [added, belongsTo_addSession unused]
  split_ifs with same
  · simp [same, homeless, eq_comm]
  · simp [same]

theorem unregister (exact : reg.UsersExact) (ref : SessionRef) (guildIDs : Finset ℤ) :
    (reg.unregister ref guildIDs).UsersExact := by
  cases present : reg.live ref with
  | none => simpa only [Registry.unregister, present] using exact
  | some session =>
    intro userID other
    rw [users_unregister present, SetIndex.has_remove, belongsTo_unregister, exact userID other]
    constructor
    · rintro ⟨belongs, kept⟩
      refine ⟨?_, belongs⟩
      rintro rfl
      obtain ⟨_, held, rfl⟩ := belongs
      cases present.symm.trans held
      exact kept ⟨rfl, rfl⟩
    · rintro ⟨different, belongs⟩
      exact ⟨belongs, fun removed => different removed.2⟩

theorem modify (exact : reg.UsersExact) (ref : SessionRef) (sameID : ∀ session, (f session).id = session.id)
    (sameUser : ∀ session, (f session).userID = session.userID) : (reg.modify ref f).UsersExact := by
  intro userID other
  rw [modify_users, exact userID other, belongsTo_modify sameID sameUser]

end UsersExact

end Registry

inductive RouteKind where
  | user
  | guild
deriving DecidableEq, Repr

structure Route where
  kind : RouteKind
  id : ℤ
deriving DecidableEq, Repr

abbrev RouteSet := Route → Bool

/-- The routes of a node are the keys of its two indexes. -/
def routeSnapshot (reg : Registry) : RouteSet
  | ⟨.user, id⟩ => (reg.users id).isSome
  | ⟨.guild, id⟩ => (reg.guilds id).isSome

/-- An operation between two of its critical sections. -/
inductive Task where
  /-- `removeSession` after it has unbound the session and copied its guild ids. -/
  | remove (session : SessionRef) (guildIDs : Finset ℤ)
  /-- `attachGuildUser` before the next of the listed sessions. -/
  | attach (guildID : ℤ) (rest : List SessionRef)
  /-- `attachGuildUser` with the guild added to a session that is not indexed yet. -/
  | attachIndex (guildID : ℤ) (session : SessionRef) (rest : List SessionRef)
  | detach (guildID : ℤ) (rest : List SessionRef)
  | detachIndex (guildID : ℤ) (session : SessionRef) (rest : List SessionRef)
  /-- `detachGuild` before the next of the listed sessions, or before it drops the index. -/
  | detachGuild (guildID : ℤ) (rest : List SessionRef)
  /-- `refreshAllRoutes` before it takes its snapshot. -/
  | refresh
  /-- `refreshAllRoutes` before it locks `routeMu`. -/
  | publish (active : RouteSet) (number : ℕ)
  /-- `refreshAllRoutes` between its two store calls. -/
  | publishing (active : RouteSet) (number : ℕ)

structure RegistryNode where
  reg : Registry := {}
  publishedRoutes : RouteSet := fun _ => false
  /-- The routes of this node in the store. -/
  stored : RouteSet := fun _ => false
  routeMu : Option ℕ := none
  tasks : Pool ℕ Task := Pool.empty
  /-- How many route snapshots have been taken. -/
  snapshots : ℕ := 0
  /-- The number of the snapshot whose publication began last. -/
  latest : ℕ := 0

/-- A store call that fails may have applied some of its writes. -/
abbrev StoreFailure := Option RouteSet

inductive RegistryEvent where
  | addSession (ref : SessionRef) (session : LogicalSession)
  | removeSession (task : ℕ) (session : SessionRef)
  | attachGuildUser (task : ℕ) (guildID userID : ℤ) (order : List SessionRef)
  | detachGuildUser (task : ℕ) (guildID userID : ℤ) (order : List SessionRef)
  | detachGuild (task : ℕ) (guildID : ℤ) (order : List SessionRef)
  | refreshAllRoutes (task : ℕ)
  | advance (task : ℕ)
  | detachRoutes (task : ℕ) (failure : StoreFailure)
  | refreshRoutes (task : ℕ) (failure : StoreFailure)

/-- `sessionsFromSet` lists a set in some order. -/
def sessionsFromSet (set : Finset SessionRef) (order : List SessionRef) : Prop :=
  order.Nodup ∧ order.toFinset = set
deriving Decidable

namespace RegistryNode

variable (node : RegistryNode) (id : ℕ)

/-- Start an operation under a free identifier. -/
def begin (task : Task) : Option RegistryNode :=
  match node.tasks id with
  | some _ => none
  | none => some { node with tasks := node.tasks.set id task }

/-- Run one section on the registry and move the operation on. -/
def move (reg : Registry) (task : Task) : RegistryNode :=
  { node with reg, tasks := node.tasks.set id task }

/-- The next critical section of an operation that is not publishing. -/
def advance : Task → Option RegistryNode
  | .remove session guildIDs =>
      if (node.reg.live session).isSome then
        some (node.move id (node.reg.unregister session guildIDs) .refresh)
      else some { node with tasks := node.tasks.drop id }
  | .attach _ [] => some (node.move id node.reg .refresh)
  | .attach guildID (session :: rest) =>
      some (node.move id (node.reg.modify session (LogicalSession.joinGuild guildID))
        (.attachIndex guildID session rest))
  | .attachIndex guildID session rest =>
      some (node.move id { node.reg with guilds := Registry.addIndex node.reg.guilds guildID session }
        (.attach guildID rest))
  | .detach _ [] => some (node.move id node.reg .refresh)
  | .detach guildID (session :: rest) =>
      some (node.move id (node.reg.modify session (LogicalSession.leaveGuild guildID))
        (.detachIndex guildID session rest))
  | .detachIndex guildID session rest =>
      some (node.move id
        { node.reg with guilds := Registry.removeIndex node.reg.guilds guildID session }
        (.detach guildID rest))
  | .detachGuild guildID (session :: rest) =>
      some (node.move id (node.reg.modify session (LogicalSession.leaveGuild guildID))
        (.detachGuild guildID rest))
  | .detachGuild guildID [] =>
      some (node.move id { node.reg with guilds := node.reg.guilds.dropKey guildID } .refresh)
  | .refresh =>
      some { node with
        tasks := node.tasks.set id (.publish (routeSnapshot node.reg) (node.snapshots + 1))
        snapshots := node.snapshots + 1 }
  | .publish .. | .publishing .. => none

/-- Lock `routeMu` and detach the published routes that are not active. -/
def detachRoutes (failure : StoreFailure) (active : RouteSet) (number : ℕ) : RegistryNode :=
  let detached : RouteSet := fun route => node.publishedRoutes route && !active route
  let locked := { node with
    routeMu := some id
    tasks := node.tasks.set id (.publishing active number)
    latest := number }
  match failure with
  | some applied => { locked with stored := fun route => node.stored route && !(detached route && applied route) }
  | none =>
    { locked with
      stored := fun route => node.stored route && !detached route
      publishedRoutes := fun route => node.publishedRoutes route && !detached route }

/-- Refresh the active routes and unlock. -/
def refreshRoutes (failure : StoreFailure) (active : RouteSet) : RegistryNode :=
  let finished := { node with routeMu := none, tasks := node.tasks.drop id }
  match failure with
  | some applied => { finished with stored := fun route => node.stored route || (active route && applied route) }
  | none =>
    { finished with
      stored := fun route => node.stored route || active route
      publishedRoutes := fun route => node.publishedRoutes route || active route }

def step : RegistryEvent → Option RegistryNode
  | .addSession ref session =>
      -- addresses are fresh, and ids are random and not reused while registered
      if node.reg.heap ref = none ∧ node.reg.sessions session.id = none then
        some { node with reg := node.reg.addSession ref session }
      else none
  | .removeSession id session =>
      let unbound := { node with reg := node.reg.modify session unbindLocked }
      unbound.begin id (.remove session (node.reg.guildsOf session))
  | .attachGuildUser id guildID userID order =>
      if guildID ≤ 0 ∨ userID ≤ 0 then some node
      else if sessionsFromSet (node.reg.users.members userID) order then
        node.begin id (.attach guildID order)
      else none
  | .detachGuildUser id guildID userID order =>
      if sessionsFromSet (node.reg.users.members userID) order then
        node.begin id (.detach guildID order)
      else none
  | .detachGuild id guildID order =>
      if sessionsFromSet (node.reg.guilds.members guildID) order then
        node.begin id (.detachGuild guildID order)
      else none
  | .refreshAllRoutes id => node.begin id .refresh
  | .advance id => (node.tasks id).bind (node.advance id)
  | .detachRoutes id failure =>
      match node.tasks id with
      | some (.publish active number) =>
          if node.routeMu = none then some (node.detachRoutes id failure active number) else none
      | _ => none
  | .refreshRoutes id failure =>
      match node.tasks id with
      | some (.publishing active _) => some (node.refreshRoutes id failure active)
      | _ => none

end RegistryNode

def registryMachine : Machine RegistryNode RegistryEvent where
  step := RegistryNode.step

end Cordis.Session
