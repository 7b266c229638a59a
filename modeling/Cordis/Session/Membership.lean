import Cordis.Session.Registry
import Cordis.Session.Replay
import Cordis.Session.Visibility

/-! # Identifying sessions and the removal of members

`identify` loads the user's guilds, then registers the session under them, then retains the loaded
snapshots; the first is a remote call and the others are sections of two different locks. The event
that a member was removed or banned first invalidates the visibility of that member, is then
dispatched, and at last detaches the guild from every session of the user and forgets the
visibility entry.

The dispatch itself touches the sessions like any other dispatch does: `section` is a critical
section of any session at any time. `listed` and `cleared` record which removals have listed the
user's sessions and which are over; they are for stating properties and no step reads them.
-/

namespace Cordis.Session

/-- An `identify` call after it has loaded the user's guilds. -/
structure Identifying where
  identity : Identity
  snapshots : List (ℤ × VisibilitySnapshot)
  /-- The session is registered and the snapshots are still to be retained. -/
  registered : Bool := false

/-- The guilds a session starts with. -/
def Identifying.guilds (call : Identifying) : Finset ℤ := (call.snapshots.map Prod.fst).toFinset

/-- What the event says: the user is no member of the guild from this access revision on. -/
structure MemberRemoved where
  guildID : ℤ
  userID : ℤ
  accessRevision : ℤ
deriving DecidableEq, Repr

/-- Where `DispatchGuildEvent` stands with the event. -/
inductive RemovalPhase where
  /-- `invalidateGuildVisibility` has listed the guild's sessions, the user's among them or not. -/
  | invalidating (found : Bool)
  | dispatching
  /-- `detachGuildUser` before the next of the listed sessions. -/
  | detaching (rest : List SessionRef) (removed : Bool)
  /-- `detachGuildUser` with the guild taken from a session that is still indexed. -/
  | unindexing (session : SessionRef) (rest : List SessionRef) (removed : Bool)

structure Removal where
  event : MemberRemoved
  phase : RemovalPhase

structure MembershipNode where
  reg : Registry := {}
  users : VisibilityUsers := fun _ => none
  identifies : Pool ℕ Identifying := Pool.empty
  removals : Pool ℕ Removal := Pool.empty
  listed : List MemberRemoved := []
  cleared : List MemberRemoved := []

inductive MembershipEvent where
  | loadReadyGuilds (call : ℕ) (identity : Identity) (response : Except Status (List ReadyGuild))
  | addSession (call : ℕ) (ref : SessionRef)
  | retainSnapshots (call : ℕ)
  | removed (task : ℕ) (event : MemberRemoved)
  | invalidate (task : ℕ)
  | detachGuildUser (task : ℕ) (order : List SessionRef)
  | leaveGuild (task : ℕ)
  | unindex (task : ℕ)
  | clear (task : ℕ)
  | section (ref : SessionRef) (event : SessionEvent)

namespace MembershipNode

variable (cfg : NodeConfig) (node : MembershipNode)

/-- Whether the guild index holds a session of the user. -/
def indexes (guildID userID : ℤ) : Bool :=
  decide (∃ ref ∈ node.reg.guilds.members guildID, ∃ session ∈ node.reg.heap ref,
    session.userID = userID)

def setRemoval (id : ℕ) (event : MemberRemoved) (phase : RemovalPhase) : MembershipNode :=
  { node with removals := node.removals.set id ⟨event, phase⟩ }

def stepIdentify : MembershipEvent → Option MembershipNode
  | .loadReadyGuilds id identity response =>
      match node.identifies id, loadReadyGuilds cfg response with
      | none, .ok snapshots =>
          some { node with identifies := node.identifies.set id { identity, snapshots } }
      | _, _ => none
  | .addSession id ref =>
      match node.identifies id with
      | some ⟨identity, snapshots, false⟩ =>
          -- addresses are fresh, and ids are random and not reused while registered
          if node.reg.heap ref = none ∧ node.reg.sessions identity.sessionID = none then
            some { node with
              reg := node.reg.addSession ref
                (identity.session cfg (Identifying.guilds ⟨identity, snapshots, false⟩))
              identifies := node.identifies.set id ⟨identity, snapshots, true⟩ }
          else none
      | _ => none
  | .retainSnapshots id =>
      match node.identifies id with
      | some ⟨identity, snapshots, true⟩ =>
          some { node with
            users := retainVisibilitySnapshots node.users identity.userID snapshots
            identifies := node.identifies.drop id }
      | _ => none
  | _ => none

def stepRemoval : MembershipEvent → Option MembershipNode
  | .removed id event =>
      match node.removals id with
      | none =>
          if 0 < event.userID then
            some (node.setRemoval id event (.invalidating (node.indexes event.guildID event.userID)))
          else none
      | some _ => none
  | .invalidate id =>
      match node.removals id with
      | some ⟨event, .invalidating found⟩ =>
          let invalidated := if found then
            (invalidateVisibilityGuild node.users event.userID event.guildID event.accessRevision).1
          else node.users
          some ({ node with users := invalidated }.setRemoval id event .dispatching)
      | _ => none
  | .detachGuildUser id order =>
      match node.removals id with
      | some ⟨event, .dispatching⟩ =>
          if sessionsFromSet (node.reg.users.members event.userID) order then
            some ({ node with listed := event :: node.listed }.setRemoval id event
              (.detaching order false))
          else none
      | _ => none
  | .leaveGuild id =>
      match node.removals id with
      | some ⟨event, .detaching (ref :: rest) removed⟩ =>
          let carried := decide (event.guildID ∈ node.reg.guildsOf ref)
          some ({ node with reg := node.reg.modify ref (LogicalSession.leaveGuild event.guildID) }.setRemoval
            id event (.unindexing ref rest (removed || carried)))
      | _ => none
  | .unindex id =>
      match node.removals id with
      | some ⟨event, .unindexing ref rest removed⟩ =>
          some ({ node with
            reg := { node.reg with
              guilds := Registry.removeIndex node.reg.guilds event.guildID ref } }.setRemoval
            id event (.detaching rest removed))
      | _ => none
  | .clear id =>
      match node.removals id with
      | some ⟨event, .detaching [] removed⟩ =>
          some { node with
            users := if removed then removeVisibilityGuild node.users event.userID event.guildID
              else node.users
            removals := node.removals.drop id
            cleared := event :: node.cleared }
      | _ => none
  | _ => none

def step (event : MembershipEvent) : Option MembershipNode :=
  match event with
  | .loadReadyGuilds .. | .addSession .. | .retainSnapshots .. => node.stepIdentify cfg event
  | .section ref ran =>
      some { node with reg := node.reg.modify ref fun session => stepSession cfg session ran }
  | _ => node.stepRemoval event

end MembershipNode

def membershipMachine (cfg : NodeConfig) : Machine MembershipNode MembershipEvent where
  step := MembershipNode.step cfg

/-! ## Whose a session is, and which guilds it carries -/

theorem Identifying.mem_guilds {call : Identifying} {guildID : ℤ} (carried : guildID ∈ call.guilds) :
    ∃ snapshot, call.snapshots.lookup guildID = some snapshot := by
  refine Option.isSome_iff_exists.mp (List.lookup_isSome_iff.mpr ?_)
  obtain ⟨pair, listed, rfl⟩ := List.mem_map.mp (List.mem_toFinset.mp carried)
  exact ⟨pair, listed, beq_self_eq_true _⟩

theorem Identifying.lookup_mem_guilds {call : Identifying} {guildID : ℤ} {snapshot : VisibilitySnapshot}
    (found : call.snapshots.lookup guildID = some snapshot) : guildID ∈ call.guilds := by
  obtain ⟨before, after, split, _⟩ := List.lookup_eq_some_iff.mp found
  rw [Identifying.guilds, split]
  simp

namespace Registry

/-- The session at the address is one of the user's. -/
def Of (reg : Registry) (userID : ℤ) (ref : SessionRef) : Prop :=
  ∃ session, reg.heap ref = some session ∧ session.userID = userID

variable {reg : Registry} {ref other : SessionRef} {userID : ℤ}

variable {f : LogicalSession → LogicalSession}

theorem of_modify (sameUser : ∀ session, (f session).userID = session.userID) :
    (reg.modify ref f).Of userID other ↔ reg.Of userID other := by
  simp only [Of, heap_modify]
  split_ifs with same
  · subst same
    simp [sameUser]
  · rfl

theorem heap_modify_ne_none :
    (reg.modify ref f).heap other ≠ none ↔ reg.heap other ≠ none := by
  rw [heap_modify]
  split_ifs with same
  · subst same
    simp
  · rfl

variable {session : LogicalSession}

theorem of_addSession (fresh : reg.heap ref = none) :
    (reg.addSession ref session).Of userID other ↔
      reg.Of userID other ∨ (session.userID = userID ∧ other = ref) := by
  simp only [Of, heap_addSession]
  split_ifs with same
  · subst same
    simp [fresh]
  · simp [same]

theorem guildsOf_addSession : (reg.addSession ref session).guildsOf other =
    if other = ref then session.guilds else reg.guildsOf other := by
  rw [guildsOf, heap_addSession]
  split_ifs <;> rfl

theorem guildsOf_modify_of_ne (f : LogicalSession → LogicalSession) (ne : other ≠ ref) :
    (reg.modify ref f).guildsOf other = reg.guildsOf other := by
  rw [guildsOf, heap_modify, if_neg ne, guildsOf]

theorem mem_guildsOf_leaveGuild {guildID left : ℤ} :
    guildID ∈ (reg.modify ref (LogicalSession.leaveGuild left)).guildsOf other ↔
      guildID ∈ reg.guildsOf other ∧ ¬ (other = ref ∧ guildID = left) := by
  by_cases same : other = ref
  · subst same
    rw [guildsOf, heap_modify, if_pos rfl, guildsOf]
    cases reg.heap other with
    | none => simp
    | some session => simp [LogicalSession.leaveGuild, and_comm]
  · simp [guildsOf_modify_of_ne _ same, same]

theorem guildsOf_modify (sameGuilds : ∀ session, (f session).guilds = session.guilds) :
    (reg.modify ref f).guildsOf other = reg.guildsOf other := by
  by_cases same : other = ref
  · subst same
    rw [guildsOf, heap_modify, if_pos rfl, guildsOf]
    cases reg.heap other with
    | none => rfl
    | some session => exact sameGuilds session
  · exact guildsOf_modify_of_ne f same

end Registry

end Cordis.Session
