import Cordis.Session.Registry
import Cordis.Session.Replay
import Cordis.Session.Visibility
import Cordis.Session.Watermark

/-! # Dispatching events to the sessions of a node

The three dispatch calls check an event against the deduplication store, change what the event says
about membership and visibility, list the sessions of the route, and hand the event to each of
them. None of this happens under one lock. A call is therefore a list of stages still to be run,
each a single critical section; a stage that lists sessions puts the sections of the listed
sessions in front of the rest. Sessions of one user that wait for a check of that user are a job,
and jobs and offers of one delivery may be taken in any order, as the worker goroutines take them.

`identify` runs beside the calls, from the load of the user's guilds to READY or to the removal of
the half-made session. The result of `ensureVisibilitySnapshot` comes with the event, and reloads
install their snapshots in steps of their own.

The fields from `frames` on are for stating properties and no step reads them: what each session
has numbered, how many changes Guild has committed, and what calls have done so far. An event of a
guild belongs to one of the guild's changes, and is dispatched after that change was committed.
-/

namespace Cordis.Session

/-- The event types that the dispatch calls tell apart. -/
inductive EventType where
  | guildCreated | guildUpdated | guildDeleted
  | memberJoined | memberRemoved | memberBanned | memberRolesUpdated
  | roleCreated | roleUpdated | roleDeleted
  | channelCreated | channelUpdated | channelDeleted | overwriteUpdated | overwriteDeleted
  | messageCreated | messageUpdated | messageDeleted
  | profileUpdated | presenceUpdated | presencePreferenceUpdated
  | other
deriving DecidableEq, Repr

def EventType.ofName : String → EventType
  | "guild.created" => .guildCreated
  | "guild.updated" => .guildUpdated
  | "guild.deleted" => .guildDeleted
  | "guild.member.joined" => .memberJoined
  | "guild.member.removed" => .memberRemoved
  | "guild.member.banned" => .memberBanned
  | "guild.member.roles.updated" => .memberRolesUpdated
  | "guild.role.created" => .roleCreated
  | "guild.role.updated" => .roleUpdated
  | "guild.role.deleted" => .roleDeleted
  | "guild.channel.created" => .channelCreated
  | "guild.channel.updated" => .channelUpdated
  | "guild.channel.deleted" => .channelDeleted
  | "guild.channel.overwrite.updated" => .overwriteUpdated
  | "guild.channel.overwrite.deleted" => .overwriteDeleted
  | "message.created" => .messageCreated
  | "message.updated" => .messageUpdated
  | "message.deleted" => .messageDeleted
  | "user.profile.updated" => .profileUpdated
  | "presence.updated" => .presenceUpdated
  | "presence.preference.updated" => .presencePreferenceUpdated
  | _ => .other

def EventType.isMessage : EventType → Bool
  | .messageCreated | .messageUpdated | .messageDeleted => true
  | _ => false

/-- The routing fields of a payload, ids parsed; an id that is absent or no number reads as zero. -/
structure EventRouting where
  id : ℤ := 0
  channelID : ℤ := 0
  userID : ℤ := 0
  ownerID : ℤ := 0
  appliesToID : ℤ := 0
  appliesTo : ℤ := 0
  accessRevision : ℤ := 0
deriving DecidableEq, Repr

/-- An event with the routing fields its payload decodes to, if it does. -/
structure EventEnvelope where
  type : String
  payload : Bytes := emptyObject
  routing : Option EventRouting := some {}
  idempotencyKey : ℤ
  streamSequence : ℤ := 0
deriving DecidableEq, Repr

def gatewayEventReconcile : String := "session.reconcile"

/-- Two minutes, in nanoseconds. -/
def dedupTTL : ℤ := 120000000000

def overwriteTypeMember : ℤ := 2

/-- The payload of the hint that a client should reload a guild. -/
def reconcilePayload (guildID channelID : ℤ) : Bytes :=
  ("\x7b\"channel_id\":\"" ++ toString channelID ++ "\",\"guild_id\":\"" ++ toString guildID ++
    "\"\x7d").toUTF8.data.toList

/-- What a dispatch call is addressed to. -/
inductive DispatchRoute where
  | guild (guildID : ℤ)
  | guildMessage (guildID channelID : ℤ)
  | user (userID : ℤ)
deriving DecidableEq, Repr

namespace DispatchRoute

def kind : DispatchRoute → UInt8
  | .guild _ => routeKindGuild
  | .guildMessage .. => routeKindGuildMsg
  | .user _ => routeKindUser

def id : DispatchRoute → ℤ
  | .guild guildID | .guildMessage guildID _ => guildID
  | .user userID => userID

variable (route : DispatchRoute) (event : EventEnvelope)

/-- The sessions that are indexed under the route. -/
def members (reg : Registry) : Finset SessionRef :=
  match route with
  | .guild guildID | .guildMessage guildID _ => reg.guilds.members guildID
  | .user userID => reg.users.members userID

/-- The checks a call makes before it looks at the deduplication store. -/
def Admits : Prop :=
  0 < route.id ∧ 0 < event.idempotencyKey ∧
  match route with
  | .guild _ => EventType.ofName event.type ≠ .presencePreferenceUpdated
  | .guildMessage _ channelID => 0 < channelID ∧ (EventType.ofName event.type).isMessage = true
  | .user _ => EventType.ofName event.type = .profileUpdated → ∃ routing ∈ event.routing, 0 < routing.userID

instance : Decidable (route.Admits event) := by
  unfold Admits
  cases route <;> infer_instance

def dedupKey : DedupKey :=
  Session.dedupKey route.kind (Int64.ofInt route.id) (Int64.ofInt event.idempotencyKey) event.type

/-- The watermark that orders the events of the route in a channel. -/
def watermarkKey (channelID : ℤ) : WatermarkKey where
  routeKind := route.kind
  routeID := Int64.ofInt route.id
  channelID := Int64.ofInt channelID

end DispatchRoute

/-- What a listed session has to pass before the event is handed to it. -/
inductive Gate where
  | all
  /-- The user is served once for each event, whatever the route. -/
  | once (kind : UInt8)
  /-- The user can see the channel. -/
  | visible (channelID : ℤ)
  /-- The user can see the channel, or could before the event. -/
  | access (channelID : ℤ)
deriving DecidableEq, Repr

/-- An event on its way to one session. -/
structure Offer where
  ref : SessionRef
  eventType : String
  payload : Bytes
deriving DecidableEq, Repr

/-- The event itself, addressed to a session. -/
def EventEnvelope.offerTo (event : EventEnvelope) (ref : SessionRef) : Offer := ⟨ref, event.type, event.payload⟩

/-- The critical sections a dispatch call is made of. -/
inductive Stage where
  /-- Take the event out of the deduplication store again. -/
  | forget
  | accept (key : WatermarkKey) (sequence : ℤ)
  | attachGuildUser (userID : ℤ)
  | join (ref : SessionRef)
  | index (ref : SessionRef)
  /-- `invalidateGuildVisibility`, of one user or of all when the id is not positive. -/
  | invalidateGuild (userID : ℤ)
  | invalidate (userID : ℤ)
  | viewers (channelID : ℤ)
  | view (channelID : ℤ) (ref : SessionRef)
  | sessions (gate : Gate)
  | deliver (gate : Gate) (jobs : List (ℤ × List SessionRef)) (queue : List Offer)
  | detachGuildUser (userID : ℤ)
  | leave (ref : SessionRef)
  | unindex (ref : SessionRef)
  | clearRemoved (userID : ℤ)
  | detachGuild
  | dropIndex
  | clear (userID : ℤ)

def Stage.isSessions : Stage → Bool
  | .sessions _ => true
  | _ => false

def Stage.isDeliver : Stage → Bool
  | .deliver .. => true
  | _ => false

/-- The stage takes sessions out of the guild index. -/
def Stage.isRemoval : Stage → Bool
  | .unindex _ | .dropIndex => true
  | _ => false

/-- Whose visibility an access event invalidates; zero stands for everyone. -/
def accessTarget (type : EventType) (routing : EventRouting) : ℤ :=
  if (type = .overwriteUpdated ∨ type = .overwriteDeleted) ∧ routing.appliesTo = overwriteTypeMember then
    routing.appliesToID
  else 0

/-- The channel of an access event. -/
def accessChannel (routing : EventRouting) : ℤ :=
  if routing.channelID = 0 then routing.id else routing.channelID

/-- `attachGuildUser` does nothing without a user. -/
def attachStages (userID : ℤ) : List Stage := if userID ≤ 0 then [] else [.attachGuildUser userID]

/-- `DispatchGuildEvent` after the deduplication check. -/
def guildStages (type : EventType) (routing : EventRouting) : List Stage :=
  match type with
  | .profileUpdated => if routing.userID ≤ 0 then [.forget] else [.sessions (.once routeKindProfile)]
  | .presenceUpdated => [.sessions (.once routeKindPresence)]
  | .guildCreated => attachStages routing.ownerID ++ [.sessions .all]
  | .memberJoined => attachStages routing.userID ++ [.sessions .all]
  | .memberRemoved | .memberBanned =>
      [.invalidateGuild routing.userID, .sessions .all, .detachGuildUser routing.userID]
  | .guildUpdated | .roleCreated | .roleUpdated | .roleDeleted | .channelDeleted =>
      [.invalidateGuild 0, .sessions .all]
  | .memberRolesUpdated => [.invalidateGuild routing.userID, .sessions .all]
  | .channelCreated | .channelUpdated | .overwriteUpdated | .overwriteDeleted =>
      [.viewers (accessChannel routing), .invalidateGuild (accessTarget type routing),
        .sessions (.access (accessChannel routing))]
  | .guildDeleted => [.sessions .all, .detachGuild]
  | _ => [.sessions .all]

/-- `DispatchUserEvent` after the deduplication check. A message event without a channel is rejected
and stays in the store. -/
def userStages (route : DispatchRoute) (type : EventType) (event : EventEnvelope) : List Stage :=
  if type.isMessage then
    match event.routing with
    | none => []
    | some routing =>
      if routing.channelID ≤ 0 then []
      else [.accept (route.watermarkKey routing.channelID) event.streamSequence, .sessions .all]
  else if type = .profileUpdated then [.sessions (.once routeKindProfile)]
  else if type = .presenceUpdated then [.sessions (.once routeKindPresence)]
  else [.sessions .all]

/-- The stages of a call whose event is new to the node. -/
def DispatchRoute.stages (route : DispatchRoute) (event : EventEnvelope) : List Stage :=
  match route with
  | .guild _ =>
      match event.routing with
      | none => [.forget]
      | some routing => guildStages (EventType.ofName event.type) routing
  | .guildMessage _ channelID =>
      [.accept (route.watermarkKey channelID) event.streamSequence, .sessions (.visible channelID)]
  | .user _ => userStages route (EventType.ofName event.type) event

structure DispatchCall where
  route : DispatchRoute
  event : EventEnvelope
  stages : List Stage
  viewers : Finset ℤ := ∅
  removed : Bool := false
  /-- The guild's change that the event reports. -/
  revision : ℕ := 0
  /-- Tells the calls of a run apart. -/
  number : ℕ

inductive IdentifyPhase where
  | loaded
  | registered (ref : SessionRef)
  | retained (ref : SessionRef)
  | failed (ref : SessionRef)
  | unbound (ref : SessionRef) (guildIDs : Finset ℤ)
  | releasing
deriving DecidableEq

/-- The session of the call, once it is registered and until it is unregistered. -/
def IdentifyPhase.ref : IdentifyPhase → Option SessionRef
  | .loaded | .releasing => none
  | .registered ref | .retained ref | .failed ref | .unbound ref _ => some ref

/-- An `identify` call after it has loaded the user's guilds. -/
structure IdentifyCall where
  identity : Identity
  snapshots : List (ℤ × VisibilitySnapshot)
  phase : IdentifyPhase := .loaded
  /-- The changes of each guild that the loaded state contains. -/
  loaded : ℤ → ℕ
  /-- What calls had begun to detach when the guilds were loaded. -/
  detached : List (ℤ × Option ℤ)

def IdentifyCall.guilds (call : IdentifyCall) : Finset ℤ := (call.snapshots.map Prod.fst).toFinset

/-- A session that `identify` makes, with what its READY is made from. -/
structure Client where
  ref : SessionRef
  userID : ℤ
  guilds : Finset ℤ
  loaded : ℤ → ℕ
  detached : List (ℤ × Option ℤ)

def IdentifyCall.client (call : IdentifyCall) (ref : SessionRef) : Client where
  ref
  userID := call.identity.userID
  guilds := call.guilds
  loaded := call.loaded
  detached := call.detached

/-- A call has listed the sessions its event goes to. `detached` are the guilds and users, or guilds
as a whole, that calls had begun to detach by then, and `discarded` the sessions removed by then. -/
structure Listing where
  number : ℕ
  route : DispatchRoute
  event : EventEnvelope
  revision : ℕ
  detached : List (ℤ × Option ℤ)
  discarded : List SessionRef

/-- An `identify` call has returned its session. -/
structure Identified where
  call : ℕ
  payload : Bytes
  client : Client

structure DispatchNode where
  reg : Registry := {}
  users : VisibilityUsers := fun _ => none
  dedup : DedupStore := newDedupStore
  watermarks : WatermarkStore := newWatermarkStore
  identifies : Pool ℕ IdentifyCall := Pool.empty
  calls : Pool ℕ DispatchCall := Pool.empty
  frames : SessionRef → List ConnectResponse := fun _ => []
  committed : ℤ → ℕ := fun _ => 0
  requests : ℕ := 0
  started : List (DispatchRoute × EventEnvelope) := []
  listed : List Listing := []
  detached : List (ℤ × Option ℤ) := []
  discarded : List SessionRef := []
  withheld : List (ℕ × ℤ) := []
  identified : List Identified := []
  offered : List (EventEnvelope × Offer) := []
  accepted : List (WatermarkKey × ℤ × ℤ) := []
  answered : List (DispatchRoute × EventEnvelope) := []

inductive DispatchEvent where
  | commit (guildID : ℤ)
  | dispatch (call : ℕ) (route : DispatchRoute) (event : EventEnvelope) (revision : ℕ) (now : ℤ)
  | list (call : ℕ) (order : List SessionRef)
  | run (call : ℕ) (now : ℤ)
  | check (call : ℕ) (userID : ℤ) (visibility : Except Status VisibilitySnapshot) (now : ℤ)
  | offer (call : ℕ) (ref : SessionRef) (moment : Moment)
  | finish (call : ℕ)
  | load (call : ℕ) (identity : Identity) (response : Except Status (List ReadyGuild))
  | addSession (call : ℕ) (ref : SessionRef)
  | retainSnapshots (call : ℕ)
  | ready (call : ℕ) (payload : Bytes) (moments : ℕ → Moment)
  | fail (call : ℕ)
  | unbind (call : ℕ)
  | unregister (call : ℕ)
  | release (call : ℕ)
  | install (userID guildID : ℤ) (generation : ℕ) (snapshot : VisibilitySnapshot)
  | rotate (now : ℤ)
  | cleanup (now : ℤ)
  | touch (ref : SessionRef) (event : SessionEvent)
  | discard (ref : SessionRef) (guildIDs : Finset ℤ)

namespace DispatchEvent

/-- The call whose listing stage the event is. -/
def listing : DispatchEvent → Option ℕ
  | .list call _ => some call
  | _ => none

/-- The dispatch call the event is a step of. -/
def call : DispatchEvent → Option ℕ
  | .dispatch call .. | .list call _ | .run call _ | .check call .. | .offer call .. | .finish call => some call
  | _ => none

/-- What a dispatch call is made with, and when. -/
def request : DispatchEvent → Option (DispatchRoute × EventEnvelope × ℤ)
  | .dispatch _ route event _ now => some (route, event, now)
  | _ => none

/-- The time that the event reads. -/
def time : DispatchEvent → Option ℤ
  | .dispatch _ _ _ _ now | .run _ now | .check _ _ _ now | .rotate now | .cleanup now => some now
  | _ => none

/-- The user a call checks, and the visibility it finds. -/
def checks : DispatchEvent → Option (ℤ × Option VisibilitySnapshot)
  | .check _ userID visibility _ => some (userID, visibility.toOption)
  | _ => none

/-- What a reload installs. -/
def installs : DispatchEvent → Option (ℤ × ℤ × VisibilitySnapshot)
  | .install userID guildID _ snapshot => some (userID, guildID, snapshot)
  | _ => none

/-- The event is a step of `identify`, or removes a session. -/
def changesSessions : DispatchEvent → Bool
  | .load .. | .addSession .. | .retainSnapshots .. | .ready .. | .fail .. | .unbind .. | .unregister ..
  | .release .. | .discard .. => true
  | _ => false

end DispatchEvent

/-- The user a session belongs to. -/
def Registry.userOf (reg : Registry) (ref : SessionRef) : ℤ :=
  (reg.heap ref).elim 0 LogicalSession.userID

/-- The users of a list of sessions, each once. -/
def Registry.usersOf (reg : Registry) (order : List SessionRef) : List ℤ :=
  (order.map reg.userOf).dedup

/-- The listed sessions grouped by their users. -/
def Registry.byUser (reg : Registry) (order : List SessionRef) : List (ℤ × List SessionRef) :=
  (reg.usersOf order).map fun userID => (userID, order.filter fun ref => decide (reg.userOf ref = userID))

namespace DispatchCall

variable (call : DispatchCall)

def guildID : ℤ := call.route.id

def routing : EventRouting := call.event.routing.getD {}

/-- The event addressed to each of the sessions. -/
def offers (refs : List SessionRef) : List Offer :=
  refs.map call.event.offerTo

/-- The set that a listing stage reads. -/
def lists (reg : Registry) : Stage → Option (Finset SessionRef)
  | .attachGuildUser userID | .detachGuildUser userID => some (reg.users.members userID)
  | .invalidateGuild _ | .viewers _ | .sessions _ | .detachGuild => some (call.route.members reg)
  | _ => none

/-- What a listing stage does with the sessions it has listed. -/
def expand (reg : Registry) (order : List SessionRef) : Stage → List Stage
  | .attachGuildUser userID =>
      order.flatMap (fun ref => [.join ref, .index ref]) ++ (if order = [] then [] else [.invalidate userID])
  | .invalidateGuild userID =>
      ((reg.usersOf order).filter fun found => decide (userID ≤ 0 ∨ found = userID)).map .invalidate
  | .viewers channelID => if channelID ≤ 0 then [] else order.map (.view channelID)
  | .sessions .all => [.deliver .all [] (call.offers order)]
  | .sessions gate => [.deliver gate (reg.byUser order) []]
  | .detachGuildUser userID =>
      order.flatMap (fun ref => [.leave ref, .unindex ref]) ++ [.clearRemoved userID]
  | .detachGuild => order.map .leave ++ .dropIndex :: (reg.usersOf order).map .clear
  | _ => []

end DispatchCall

namespace DispatchNode

variable (cfg : NodeConfig) (node : DispatchNode)

variable (id : ℕ) (call : DispatchCall)

def setCall : DispatchNode := { node with calls := node.calls.set id call }

def setIdentify (call : IdentifyCall) : DispatchNode :=
  { node with identifies := node.identifies.set id call }

/-- Run a section of one session. -/
def onSession (ref : SessionRef) (event : SessionEvent) : DispatchNode :=
  { node with
    reg := node.reg.modify ref fun session => stepSession cfg session event
    frames := Function.update node.frames ref
      (node.frames ref ++ (node.reg.heap ref).elim [] fun session => owed cfg session event) }

variable (route : DispatchRoute) (event : EventEnvelope)

/-- The event passes the deduplication check. -/
def IsNew (now : ℤ) : Prop :=
  (node.dedup.checkAndAdd now route.kind (Int64.ofInt route.id) (Int64.ofInt event.idempotencyKey) event.type
    dedupTTL).2 = true
deriving Decidable

/-- The start of a call, up to and with the deduplication check. -/
def request (revision : ℕ) (now : ℤ) : DispatchNode :=
  let checked := node.dedup.checkAndAdd now route.kind (Int64.ofInt route.id)
    (Int64.ofInt event.idempotencyKey) event.type dedupTTL
  if checked.2 then
    { node with
      dedup := checked.1
      requests := node.requests + 1
      started := (route, event) :: node.started
      calls := node.calls.set id
        { route, event, revision, stages := route.stages event, number := node.requests } }
  else { node with dedup := checked.1, answered := (route, event) :: node.answered }

/-- A listing stage. -/
def list (stage : Stage) (rest : List Stage) (order : List SessionRef) : DispatchNode :=
  let moved := node.setCall id { call with stages := call.expand node.reg order stage ++ rest }
  match stage with
  | .sessions _ =>
      { moved with
        listed :=
          ⟨call.number, call.route, call.event, call.revision, node.detached, node.discarded⟩ ::
            node.listed }
  | .detachGuildUser userID => { moved with detached := (call.guildID, some userID) :: node.detached }
  | .detachGuild => { moved with detached := (call.guildID, none) :: node.detached }
  | _ => moved

/-- A stage that is one section without a choice. -/
def runStage (rest : List Stage) (now : ℤ) : Stage → Option DispatchNode
  | .forget =>
      some ({ node with
        dedup := node.dedup.remove call.route.kind (Int64.ofInt call.route.id)
          (Int64.ofInt call.event.idempotencyKey) call.event.type }.setCall id { call with stages := rest })
  | .accept key sequence =>
      let checked := node.watermarks.accept now key sequence
      let answered := { node with
        watermarks := checked.1, answered := (call.route, call.event) :: node.answered }
      if checked.2 then
        some ({ answered with accepted := (key, sequence, now) :: node.accepted }.setCall id
          { call with stages := rest })
      else some (answered.setCall id { call with stages := [] })
  | .join ref =>
      some ({ node with reg := node.reg.modify ref (LogicalSession.joinGuild call.guildID) }.setCall id
        { call with stages := rest })
  | .index ref =>
      some ({ node with
        reg := { node.reg with guilds := Registry.addIndex node.reg.guilds call.guildID ref } }.setCall id
        { call with stages := rest })
  | .invalidate userID =>
      some ({ node with
        users := (invalidateVisibilityGuild node.users userID call.guildID
          call.routing.accessRevision).1 }.setCall id { call with stages := rest })
  | .view channelID ref =>
      let userID := node.reg.userOf ref
      let viewers :=
        if ∃ snapshot ∈ visibilitySnapshotFor node.users userID call.guildID, snapshot.contains channelID then
          insert userID call.viewers
        else call.viewers
      some (node.setCall id { call with stages := rest, viewers })
  | .leave ref =>
      let removed := call.removed || decide (call.guildID ∈ node.reg.guildsOf ref)
      some ({ node with reg := node.reg.modify ref (LogicalSession.leaveGuild call.guildID) }.setCall id
        { call with stages := rest, removed })
  | .unindex ref =>
      some ({ node with
        reg := { node.reg with guilds := Registry.removeIndex node.reg.guilds call.guildID ref } }.setCall id
        { call with stages := rest })
  | .clearRemoved userID =>
      let users := if call.removed then removeVisibilityGuild node.users userID call.guildID else node.users
      some ({ node with users }.setCall id { call with stages := rest })
  | .dropIndex =>
      some ({ node with
        reg := { node.reg with guilds := node.reg.guilds.dropKey call.guildID } }.setCall id
        { call with stages := rest })
  | .clear userID =>
      some ({ node with users := removeVisibilityGuild node.users userID call.guildID }.setCall id
        { call with stages := rest })
  | .deliver _ [] [] => some (node.setCall id { call with stages := rest })
  | _ => none

/-- The check of one user before the event is handed to the user's listed sessions. A visibility that
cannot be loaded makes the node send a hint instead, once. -/
def checkUser (gate : Gate) (jobs : List (ℤ × List SessionRef))
    (queue : List Offer) (rest : List Stage) (userID : ℤ) (refs : List SessionRef)
    (visibility : Except Status VisibilitySnapshot) (now : ℤ) : Option DispatchNode :=
  let remaining := jobs.filter fun job => decide (job.1 ≠ userID)
  let pass (node : DispatchNode) (offers : List Offer) : DispatchNode :=
    node.setCall id { call with stages := .deliver gate remaining (queue ++ offers) :: rest }
  let withhold (node : DispatchNode) (offers : List Offer) : DispatchNode :=
    pass { node with withheld := (call.number, userID) :: node.withheld } offers
  let reconcile (channelID : ℤ) : DispatchNode :=
    let marked := markVisibilityReconcile node.users userID call.guildID
    withhold { node with users := marked.1 } <|
      if marked.2 then
        refs.map fun ref => ⟨ref, gatewayEventReconcile, reconcilePayload call.guildID channelID⟩
      else []
  match gate with
  | .all => none
  | .once kind =>
      let checked := node.dedup.checkAndAdd now kind (Int64.ofInt userID)
        (Int64.ofInt call.event.idempotencyKey) call.event.type dedupTTL
      some (if checked.2 then pass { node with dedup := checked.1 } (call.offers refs)
        else withhold { node with dedup := checked.1 } [])
  | .visible channelID =>
      match visibility with
      | .error _ => some (reconcile channelID)
      | .ok snapshot =>
        some (if snapshot.contains channelID then pass node (call.offers refs) else withhold node [])
  | .access channelID =>
      match visibility with
      | .error _ => some (reconcile channelID)
      | .ok snapshot =>
        some (if userID ∈ call.viewers ∨ snapshot.contains channelID = true then pass node (call.offers refs)
          else withhold node [])

/-- `dispatchSession` of one session the event is on its way to. -/
def offer (gate : Gate) (jobs : List (ℤ × List SessionRef))
    (queue : List Offer) (rest : List Stage) (item : Offer) (moment : Moment) : DispatchNode :=
  let offered := node.onSession cfg item.ref (.dispatch item.eventType item.payload moment)
  { offered with offered := (call.event, item) :: node.offered }.setCall id
    { call with stages := .deliver gate jobs (queue.erase item) :: rest }

def stepDispatch : DispatchEvent → Option DispatchNode
  | .dispatch id route event revision now =>
      if node.calls id = none ∧ route.Admits event ∧ revision ≤ node.committed route.id then
        some (node.request id route event revision now)
      else none
  | .list id order =>
      match node.calls id with
      | some call =>
          match call.stages with
          | stage :: rest =>
              match call.lists node.reg stage with
              | some set =>
                  if sessionsFromSet set order then some (node.list id call stage rest order) else none
              | none => none
          | [] => none
      | none => none
  | .run id now =>
      match node.calls id with
      | some call =>
          match call.stages with
          | stage :: rest => node.runStage id call rest now stage
          | [] => none
      | none => none
  | .check id userID visibility now =>
      match node.calls id with
      | some call =>
          match call.stages with
          | .deliver gate jobs queue :: rest =>
              match jobs.lookup userID with
              | some refs => node.checkUser id call gate jobs queue rest userID refs visibility now
              | none => none
          | _ => none
      | none => none
  | .offer id ref moment =>
      match node.calls id with
      | some call =>
          match call.stages with
          | .deliver gate jobs queue :: rest =>
              match queue.find? fun item => decide (item.ref = ref) with
              | some item => some (node.offer cfg id call gate jobs queue rest item moment)
              | none => none
          | _ => none
      | none => none
  | .finish id =>
      match node.calls id with
      | some call =>
          match call.stages with
          | [] => some { node with calls := node.calls.drop id }
          | _ => none
      | none => none
  | _ => none

/-- READY is appended and `identify` returns. -/
def greet (call : IdentifyCall) (ref : SessionRef) (payload : Bytes) (moments : ℕ → Moment) : DispatchNode :=
  { node.onSession cfg ref (.ready payload moments) with
    identifies := node.identifies.drop id
    identified := ⟨id, payload, call.client ref⟩ :: node.identified }

def stepIdentify : DispatchEvent → Option DispatchNode
  | .load id identity response =>
      match node.identifies id, loadReadyGuilds cfg response with
      | none, .ok snapshots => some (node.setIdentify id
          { identity, snapshots, loaded := node.committed, detached := node.detached })
      | _, _ => none
  | .addSession id ref =>
      match node.identifies id with
      | some call =>
          -- addresses are fresh, and ids are random and not reused while registered
          if call.phase = .loaded ∧ node.reg.heap ref = none ∧
              node.reg.sessions call.identity.sessionID = none then
            some ({ node with
              reg := node.reg.addSession ref (call.identity.session cfg call.guilds) }.setIdentify id
              { call with phase := .registered ref })
          else none
      | none => none
  | .retainSnapshots id =>
      match node.identifies id with
      | some call =>
          match call.phase with
          | .registered ref =>
              some ({ node with
                users := retainVisibilitySnapshots node.users call.identity.userID call.snapshots }.setIdentify
                id { call with phase := .retained ref })
          | _ => none
      | none => none
  | .ready id payload moments =>
      match node.identifies id with
      | some call =>
          match call.phase with
          | .retained ref =>
              match node.reg.heap ref with
              | some session =>
                  if session.pendingDispatchOverflow then
                    some (node.setIdentify id { call with phase := .failed ref })
                  else some (node.greet cfg id call ref payload moments)
              | none => none
          | _ => none
      | none => none
  | .fail id =>
      match node.identifies id with
      | some call =>
          match call.phase with
          | .retained ref => some (node.setIdentify id { call with phase := .failed ref })
          | _ => none
      | none => none
  | .unbind id =>
      match node.identifies id with
      | some call =>
          match call.phase with
          | .failed ref =>
              some ((node.onSession cfg ref .remove).setIdentify id
                { call with phase := .unbound ref (node.reg.guildsOf ref) })
          | _ => none
      | none => none
  | .unregister id =>
      match node.identifies id with
      | some call =>
          match call.phase with
          | .unbound ref guildIDs =>
              some ({ node with reg := node.reg.unregister ref guildIDs }.setIdentify id
                { call with phase := .releasing })
          | _ => none
      | none => none
  | .release id =>
      match node.identifies id with
      | some call =>
          match call.phase with
          | .releasing =>
              some { node with
                users := releaseVisibilitySnapshots node.users call.identity.userID
                identifies := node.identifies.drop id }
          | _ => none
      | none => none
  | _ => none

/-- Everything else that touches the same state. A session that has come through `identify` may be
removed at any time; READY comes from `identify` only. -/
def stepServer : DispatchEvent → Option DispatchNode
  | .commit guildID =>
      some { node with
        committed := Function.update node.committed guildID (node.committed guildID + 1) }
  | .install userID guildID generation snapshot =>
      some { node with
        users := (installReloadedVisibilitySnapshot node.users userID guildID generation snapshot).1 }
  | .rotate now => some { node with dedup := node.dedup.rotateAll now }
  | .cleanup now => some { node with watermarks := node.watermarks.cleanup now }
  | .touch ref event =>
      match event with
      | .ready .. => none
      | _ => some (node.onSession cfg ref event)
  | .discard ref guildIDs =>
      match node.reg.heap ref with
      | some session =>
          if session.initializing then none
          else some { node with
            reg := node.reg.unregister ref guildIDs, discarded := ref :: node.discarded }
      | none => none
  | _ => none

def step (event : DispatchEvent) : Option DispatchNode :=
  match event with
  | .dispatch .. | .list .. | .run .. | .check .. | .offer .. | .finish .. => node.stepDispatch cfg event
  | .load .. | .addSession .. | .retainSnapshots .. | .ready .. | .fail .. | .unbind .. | .unregister ..
  | .release .. => node.stepIdentify cfg event
  | _ => node.stepServer cfg event

end DispatchNode

def dispatchMachine (cfg : NodeConfig) : Machine DispatchNode DispatchEvent where
  step := DispatchNode.step cfg

end Cordis.Session
