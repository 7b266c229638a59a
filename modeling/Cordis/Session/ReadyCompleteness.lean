import Cordis.Session.Delivery

/-! # Guild events and READY

READY carries the guilds as Guild had them when `identify` loaded them, and everything buffered
since the session was registered follows it. An event of one of the guilds is therefore either part
of what was loaded or reaches the session after READY, provided the node did not list the guild's
sessions for a newer event in the gap between the load and the registration. In that gap the event
is too new for READY and the session not yet there to be listed.

An event counts as meant for the session while the user belongs to the guild as far as the node has
been told, the session has not been removed, and the check of the user does not withhold the event.
-/

namespace Cordis.Session

open Pool Registry List

namespace Client

/-- No call has begun to detach the user from the guild since the guilds were loaded, and none has
begun to detach the guild as a whole. -/
def Belongs (client : Client) (guildID : ℤ) (detached : List (ℤ × Option ℤ)) : Prop :=
  detached.count (guildID, some client.userID) ≤ client.detached.count (guildID, some client.userID) ∧
    (guildID, none) ∉ detached
deriving Decidable

variable {client : Client} {guildID : ℤ} {detached : List (ℤ × Option ℤ)}

theorem Belongs.tail {entry : ℤ × Option ℤ} (belongs : client.Belongs guildID (entry :: detached)) :
    client.Belongs guildID detached :=
  ⟨(count_le_count_cons).trans belongs.1, fun member => belongs.2 (mem_cons_of_mem _ member)⟩

end Client

namespace DispatchNode

variable (id : ℕ) (node : DispatchNode)

/-- While the call has loaded its guilds and not yet registered the session, a listing of one of
the guilds' sessions is for an event that the loaded state contains. -/
def Undisturbed (event : DispatchEvent) : Prop :=
  ∀ other ∈ event.listing, ∀ call ∈ node.calls other, call.stages.head?.any Stage.isSessions = true →
    ∀ identify ∈ node.identifies id, identify.phase = .loaded →
      ∀ guildID ∈ identify.guilds, call.route = .guild guildID → call.revision ≤ identify.loaded guildID
deriving Decidable

variable {cfg : NodeConfig} {node next : DispatchNode} {event : DispatchEvent} {id : ℕ}

/-! ## What `identify` calls do -/

/-- Where an `identify` call that runs after a step comes from. -/
inductive IdentifyOrigin (cfg : NodeConfig) (node : DispatchNode) (event : DispatchEvent) (id : ℕ)
    (moved : IdentifyCall) (next : DispatchNode) : Prop
  | same (current : node.identifies id = some moved)
  | loaded (phase : moved.phase = .loaded) (committed : moved.loaded = node.committed)
      (detached : moved.detached = node.detached) (next_eq : next = node.setIdentify id moved)
  | registered {call ref} (current : node.identifies id = some call) (phase : call.phase = .loaded)
      (fresh : node.reg.heap ref = none) (result : moved = { call with phase := .registered ref })
      (event_eq : event = .addSession id ref)
      (next_eq : next = { node with
        reg := node.reg.addSession ref (call.identity.session cfg call.guilds) }.setIdentify id moved)
  | advanced {call phase} (current : node.identifies id = some call) (result : moved = { call with phase })
      (refs : ∀ ref ∈ phase.ref, ref ∈ call.phase.ref) (started : phase ≠ .loaded)
      (serving : ∀ ref, phase = .registered ref ∨ phase = .retained ref → call.phase = .registered ref)

section

variable (transition : node.Transition cfg event next)

include transition

theorem identifies_transition {moved : IdentifyCall} (running : next.identifies id = some moved) : IdentifyOrigin cfg node event id moved next := by
  have dispatching := dispatching_transition transition
  cases transition with
  | dispatch | list | run | check => exact .same ((dispatching nofun).identifies ▸ running)
  | load =>
    rcases of_set running with ⟨rfl, rfl⟩ | ⟨_, before⟩
    · exact .loaded rfl rfl rfl rfl
    · exact .same before
  | addSession current phase fresh =>
    rcases of_set running with ⟨rfl, rfl⟩ | ⟨_, before⟩
    · exact .registered current phase fresh rfl rfl rfl
    · exact .same before
  | retain current phase =>
    rcases of_set running with ⟨rfl, rfl⟩ | ⟨_, before⟩
    · refine .advanced current rfl (by rw [phase]; exact fun _ member => member) nofun ?_
      rintro _ (⟨⟨⟩⟩ | ⟨⟨⟩⟩)
      exact phase
    · exact .same before
  | fail current phase | unbind current phase =>
    rcases of_set running with ⟨rfl, rfl⟩ | ⟨_, before⟩
    · exact .advanced current rfl (by rw [phase]; exact fun _ member => member) nofun (by simp)
    · exact .same before
  | unregister current phase =>
    rcases of_set running with ⟨rfl, rfl⟩ | ⟨_, before⟩
    · exact .advanced current rfl nofun nofun (by simp)
    · exact .same before
  | ready | release => exact .same (of_drop running)
  | _ => exact .same running

/-- The sessions of running `identify` calls wait for READY, and no two calls share one. -/
structure Waiting (node : DispatchNode) : Prop where
  waiting : node.identifies.All fun _ call => ∀ ref ∈ call.phase.ref, ∃ session,
    node.reg.heap ref = some session ∧ session.initializing = true ∧ session.userID = call.identity.userID
  distinct : ∀ first second call other ref, node.identifies first = some call →
    node.identifies second = some other → ref ∈ call.phase.ref → ref ∈ other.phase.ref → first = second

variable {ref : SessionRef} {session : LogicalSession}

/-- A session that waits for READY keeps waiting while its call runs. -/
theorem Waiting.evolves (inv : node.Waiting) {call moved : IdentifyCall} (current : node.identifies id = some call)
    (running : next.identifies id = some moved) (of : ref ∈ call.phase.ref)
    (held : node.reg.heap ref = some session) :
    ∃ after, next.reg.heap ref = some after ∧ Evolves session after := by
  rcases heap_transition transition held with evolves | ⟨other, found, _, _, present, phase, _, rfl⟩
  · exact evolves
  · have same := inv.distinct id other call found ref current present of (by rw [phase]; rfl)
    subst same
    cases (drop_self ..).symm.trans running

theorem Waiting.step (inv : node.Waiting) : next.Waiting where
  waiting := by
    intro id moved running ref of
    have evolved : ∀ call, node.identifies id = some call → ref ∈ call.phase.ref → ∃ session,
        next.reg.heap ref = some session ∧ session.initializing = true ∧
          session.userID = call.identity.userID := by
      intro call current of
      obtain ⟨session, held, waits, user⟩ := inv.waiting id call current ref of
      obtain ⟨after, present, evolves⟩ := inv.evolves transition current running of held
      exact ⟨after, present, evolves.initializing.trans waits, evolves.userID.trans user⟩
    cases identifies_transition transition running with
    | same current => exact evolved moved current of
    | loaded phase =>
      rw [phase] at of
      cases of
    | registered current phase fresh result event_eq next_eq =>
      subst next_eq result
      cases of
      exact ⟨_, heap_addSession.trans (if_pos rfl), rfl, rfl⟩
    | advanced current result refs =>
      subst result
      obtain ⟨session, held⟩ := evolved _ current (refs ref of)
      exact ⟨session, held⟩
  distinct := by
    intro first second call other ref here there ofCall ofOther
    -- a reference of a call is its own from before, or it was fresh and the step registered it
    have source : ∀ {id moved}, next.identifies id = some moved → ref ∈ moved.phase.ref →
        (∃ call, node.identifies id = some call ∧ ref ∈ call.phase.ref) ∨
          node.reg.heap ref = none ∧ event = .addSession id ref := by
      intro id moved running of
      cases identifies_transition transition running with
      | same current => exact .inl ⟨moved, current, of⟩
      | loaded phase =>
        rw [phase] at of
        cases of
      | registered current phase fresh result event_eq =>
        subst result
        cases of
        exact .inr ⟨fresh, event_eq⟩
      | advanced current result refs =>
        subst result
        exact .inl ⟨_, current, refs ref of⟩
    have allocated : ∀ {id call}, node.identifies id = some call → ref ∈ call.phase.ref →
        node.reg.heap ref ≠ none := by
      intro id call current of absent
      obtain ⟨session, held, _⟩ := inv.waiting id call current ref of
      cases absent.symm.trans held
    rcases source here ofCall with ⟨before, current, of⟩ | ⟨fresh, rfl⟩
    · rcases source there ofOther with ⟨otherBefore, otherCurrent, otherOf⟩ | ⟨fresh, _⟩
      · exact inv.distinct first second before otherBefore ref current otherCurrent of otherOf
      · exact absurd fresh (allocated current of)
    · rcases source there ofOther with ⟨otherBefore, otherCurrent, otherOf⟩ | ⟨_, event_eq⟩
      · exact absurd fresh (allocated otherCurrent otherOf)
      · cases event_eq
        rfl

/-! ## What the node serves -/

/-- The session is indexed under the guilds of its READY while the user belongs to them, and what was
listed for it is loaded, withheld, on its way, or has got to it. -/
structure Serves (node : DispatchNode) (client : Client) (got : PendingDispatch → Prop) : Prop where
  held : ∃ session, node.reg.heap client.ref = some session ∧ session.userID = client.userID
  since : ∀ entry, client.detached.count entry ≤ node.detached.count entry
  detaching : node.calls.All fun _ call => .unindex client.ref ∈ call.stages →
    client.detached.count (call.guildID, some client.userID) <
      node.detached.count (call.guildID, some client.userID)
  indexed : ∀ guildID ∈ client.guilds, client.Belongs guildID node.detached →
    client.ref ∉ node.discarded → node.reg.guilds.Has guildID client.ref
  served : ∀ listing ∈ node.listed, ∀ guildID ∈ client.guilds, listing.route = .guild guildID →
    client.Belongs guildID listing.detached → client.ref ∉ listing.discarded →
    listing.revision ≤ client.loaded guildID ∨ (listing.number, client.userID) ∈ node.withheld ∨
      node.Delivering listing.number listing.event client.ref client.userID ∨
      got ⟨listing.event.type, listing.event.payload⟩

/-- A session stays served while it stays registered: what has got to it is kept, and what is handed
to it gets to it. -/
theorem Serves.step {client : Client} {got later : PendingDispatch → Prop} (serves : node.Serves client got)
    (users : node.reg.UsersExact)
    (dropping : node.calls.All fun _ call => .dropIndex ∈ call.stages → (call.guildID, none) ∈ node.detached)
    (registered : ∀ id call guildIDs, node.identifies id = some call → call.phase ≠ .unbound client.ref guildIDs)
    (keeps : ∀ item, got item → later item)
    (handed : ∀ id call gate jobs queue rest eventType payload moment, node.calls id = some call →
      next = node.offer cfg id call gate jobs queue rest ⟨client.ref, eventType, payload⟩ moment →
      later ⟨eventType, payload⟩) :
    next.Serves client later := by
  obtain ⟨session, held, user⟩ := serves.held
  have owner : ∀ userID, node.reg.users.Has userID client.ref → userID = client.userID := by
    intro userID has
    obtain ⟨found, live, same⟩ := (users userID client.ref).mp has
    cases (live_eq_some.mp live).1.symm.trans held
    exact same.symm.trans user
  have shrinks : ∀ guildID, client.Belongs guildID next.detached → client.Belongs guildID node.detached := by
    intro guildID belongs
    rcases (grows_transition transition).detached with same | ⟨entry, more⟩
    · exact same ▸ belongs
    · exact (more ▸ belongs).tail
  have userOf : node.reg.userOf client.ref = client.userID := by
    simp [userOf, held, user]
  constructor
  case held =>
    obtain ⟨after, present, same⟩ := userID_transition transition held
    exact ⟨after, present, same.trans user⟩
  case since => exact fun entry => (serves.since entry).trans (count_detached_transition transition entry)
  case detaching =>
    intro id moved running unindexes
    rcases calls_transition transition running with ⟨call, current, same, origin⟩ | ⟨_, quiet⟩
    · have guild : moved.guildID = call.guildID := congrArg DispatchRoute.id same.route
      rw [guild]
      cases origin _ unindexes with
      | plain quiet => cases quiet
      | earlier member =>
        exact (serves.detaching id call current member).trans_le (count_detached_transition transition _)
      | unindex listed recorded =>
        cases owner _ listed
        rw [recorded, count_cons_self]
        exact Nat.lt_succ_of_le (serves.since _)
    · cases quiet _ unindexes
  case indexed =>
    intro guildID member belongs present
    have before := serves.indexed guildID member (shrinks guildID belongs)
      fun discarded => present ((grows_transition transition).discarded discarded)
    rcases guilds_transition transition before with
      has | ⟨id, call, current, rfl, unindexes | drops⟩ | discarded | ⟨id, call, guildIDs, current, phase⟩
    · exact has
    · exact absurd (shrinks _ belongs).1 (Nat.not_le.mpr (serves.detaching id call current unindexes))
    · exact absurd (dropping id call current drops) (shrinks _ belongs).2
    · exact absurd discarded present
    · exact absurd phase (registered id call guildIDs current)
  case served =>
    intro listing listed guildID member route belongs present
    rcases listed_transition transition listed with
      earlier | ⟨id, call, _, _, _, rfl, delivering⟩
    · rcases serves.served listing earlier guildID member route belongs present with
        loaded | withheld | delivering | got
      · exact .inl loaded
      · exact .inr (.inl ((grows_transition transition).withheld withheld))
      · rcases delivering.step transition with
          still | withheld | ⟨id, call, gate, jobs, queue, rest, moment, current, rfl⟩
        · exact .inr (.inr (.inl still))
        · exact .inr (.inl withheld)
        · exact .inr (.inr (.inr (handed _ _ _ _ _ _ _ _ _ current rfl)))
      · exact .inr (.inr (.inr (keeps _ got)))
    · have indexed := serves.indexed guildID member belongs present
      refine .inr (.inr (.inl ?_))
      rw [← userOf]
      refine delivering client.ref ?_
      rw [show call.route = _ from route]
      exact SetIndex.has_iff_mem_members.mp indexed

theorem committed_transition (guildID : ℤ) :
    node.committed guildID ≤ next.committed guildID := by
  have dispatching := dispatching_transition transition
  cases transition with
  | @commit changed =>
    dsimp only
    by_cases same : guildID = changed
    · subst same
      rw [Function.update_self]
      exact Nat.le_succ _
    · rw [Function.update_of_ne same]
  | dispatch | list | run | check => rw [(dispatching nofun).committed]
  | _ => exact le_rfl

/-- Events report changes that Guild has committed. -/
structure Past (node : DispatchNode) : Prop where
  calls : node.calls.All fun _ call => call.revision ≤ node.committed call.guildID
  listed : ∀ listing ∈ node.listed, listing.revision ≤ node.committed listing.route.id

theorem Past.step (inv : node.Past) : next.Past where
  calls := by
    intro id moved running
    refine le_trans ?_ (committed_transition transition _)
    rcases calls_transition transition running with ⟨call, current, same, _⟩ | ⟨past, _⟩
    · rw [same.revision, DispatchCall.guildID, same.route]
      exact inv.calls id call current
    · exact past
  listed := by
    intro listing listed
    refine le_trans ?_ (committed_transition transition _)
    rcases listed_transition transition listed with earlier | ⟨id, call, _, current, _, rfl, _⟩
    · exact inv.listed listing earlier
    · exact inv.calls id call current

/-- The stages that take sessions out of a guild index belong to detachments on record. -/
structure Detachments (node : DispatchNode) : Prop where
  users : node.reg.UsersExact
  named : node.calls.All fun _ call => ∀ ref, .unindex ref ∈ call.stages → node.reg.heap ref ≠ none
  dropping : node.calls.All fun _ call => .dropIndex ∈ call.stages → (call.guildID, none) ∈ node.detached

theorem Detachments.step (inv : node.Detachments) : next.Detachments where
  users := usersExact_transition inv.users transition
  named := by
    intro id moved running ref unindexes
    suffices held : node.reg.heap ref ≠ none by
      obtain ⟨session, held⟩ := Option.ne_none_iff_exists.mp held
      obtain ⟨after, present, _⟩ := userID_transition transition held.symm
      exact fun absent => by cases absent.symm.trans present
    rcases calls_transition transition running with ⟨call, current, _, origin⟩ | ⟨_, quiet⟩
    · cases origin _ unindexes with
      | plain quiet => cases quiet
      | earlier member => exact inv.named id call current ref member
      | unindex listed =>
        obtain ⟨session, live, _⟩ := (inv.users _ _).mp listed
        exact fun absent => by cases absent.symm.trans (live_eq_some.mp live).1
    · cases quiet _ unindexes
  dropping := by
    intro id moved running drops
    rcases calls_transition transition running with ⟨call, current, same, origin⟩ | ⟨_, quiet⟩
    · have guild : moved.guildID = call.guildID := congrArg DispatchRoute.id same.route
      rw [guild]
      cases origin _ drops with
      | plain quiet => cases quiet
      | earlier member =>
        have recorded := inv.dropping id call current member
        rcases (grows_transition transition).detached with unchanged | ⟨_, more⟩
        · rw [unchanged]
          exact recorded
        · rw [more]
          exact mem_cons_of_mem _ recorded
      | dropIndex recorded =>
        rw [recorded]
        exact mem_cons_self
    · cases quiet _ drops

/-! ## The invariant of one `identify` call -/

/-- The event has got into the buffer of the session, which may since have overflowed. -/
def Buffered (node : DispatchNode) (ref : SessionRef) (item : PendingDispatch) : Prop :=
  ∃ session, node.reg.heap ref = some session ∧ Buffers session item

/-- The session has been greeted with the payload and waits no longer. -/
structure Welcomed (node : DispatchNode) (ref : SessionRef) (payload : Bytes) : Prop where
  ready : Greeted (node.frames ref) payload
  held : ∃ session, node.reg.heap ref = some session ∧ session.initializing = false

/-- From the load on, every event listed for one of the loaded guilds is accounted for: in the loaded
state, before the session is registered; then in the loaded state or with the session. -/
structure Accounted (id : ℕ) (node : DispatchNode) : Prop where
  waiting : node.Waiting
  past : node.Past
  detachments : node.Detachments
  loaded : ∀ call, node.identifies id = some call → call.phase = .loaded →
    (∀ entry, call.detached.count entry ≤ node.detached.count entry) ∧
    ∀ listing ∈ node.listed, ∀ guildID ∈ call.guilds, listing.route = .guild guildID →
      listing.revision ≤ call.loaded guildID
  serving : ∀ call ref, node.identifies id = some call →
    call.phase = .registered ref ∨ call.phase = .retained ref →
    node.Serves (call.client ref) (node.Buffered ref)
  served : ∀ record ∈ node.identified, record.call = id →
    node.Welcomed record.client.ref record.payload ∧
      node.Serves record.client (AfterReady (node.frames record.client.ref) record.payload)

/-- A new record is that of a call whose READY has just been appended. -/
theorem identified_transition {record : Identified} (member : record ∈ next.identified) :
    record ∈ node.identified ∨
      ∃ id call ref session payload moments, node.identifies id = some call ∧ call.phase = .retained ref ∧
        node.reg.heap ref = some session ∧ session.pendingDispatchOverflow = false ∧
        record = ⟨id, payload, call.client ref⟩ ∧ next = node.greet cfg id call ref payload moments := by
  have dispatching := dispatching_transition transition
  cases transition with
  | dispatch | list | run | check => exact .inl ((dispatching nofun).identified ▸ member)
  | @ready id payload moments ref call session current phase held sound =>
    rcases mem_cons.mp member with rfl | earlier
    · exact .inr ⟨id, call, ref, session, payload, moments, current, phase, held, sound, rfl, rfl⟩
    · exact .inl earlier
  | _ => exact .inl member

omit transition in
/-- An event handed to a session that waits for READY is buffered. -/
theorem buffered_offer {call : DispatchCall} {gate : Gate} {jobs : List (ℤ × List SessionRef)}
    {queue : List Offer} {rest : List Stage} {item : Offer} {moment : Moment}
    (held : node.reg.heap item.ref = some session) (waits : session.initializing = true) :
    (node.offer cfg id call gate jobs queue rest item moment).Buffered item.ref ⟨item.eventType, item.payload⟩ := by
  refine ⟨_, (heap_onSession ..).trans ((if_pos rfl).trans (congrArg _ held)), ?_⟩
  exact (dispatchSession_buffer _ _ item.eventType item.payload moment).2.2 waits

omit transition in
/-- An event handed to a session that has been greeted follows READY. -/
theorem afterReady_offer {call : DispatchCall} {gate : Gate} {jobs : List (ℤ × List SessionRef)}
    {queue : List Offer} {rest : List Stage} (item : Offer) {moment : Moment} {payload : Bytes}
    (welcomed : node.Welcomed item.ref payload) :
    AfterReady ((node.offer cfg id call gate jobs queue rest item moment).frames item.ref) payload
      ⟨item.eventType, item.payload⟩ := by
  obtain ⟨session, held, greeted⟩ := welcomed.held
  have frames := frames_onSession cfg held (.dispatch item.eventType item.payload moment)
  simp only [owed, greeted, Bool.false_eq_true, ↓reduceIte] at frames
  obtain ⟨greeting, member, same⟩ := welcomed.ready
  obtain ⟨before, after, split⟩ := append_of_mem member
  refine ⟨before, greeting, after ++ numberFrom session.sequence [⟨item.eventType, item.payload⟩], ?_, same.1, same.2, ?_⟩
  · exact frames.trans (by simp [split])
  · exact ⟨_, mem_append_right _ mem_cons_self, rfl, rfl⟩

theorem Welcomed.step {payload : Bytes} (welcomed : node.Welcomed ref payload)
    (waiting : node.Waiting) : next.Welcomed ref payload where
  ready := by
    obtain ⟨more, grown⟩ := (grows_transition transition).frames ref
    rw [grown]
    exact welcomed.ready.append more
  held := by
    obtain ⟨session, held, greeted⟩ := welcomed.held
    rcases heap_transition transition held with ⟨after, present, evolves⟩ | ⟨id, call, _, _, current, phase, _⟩
    · exact ⟨after, present, evolves.initializing.trans greeted⟩
    · obtain ⟨found, again, waits, _⟩ := waiting.waiting id call current ref (by rw [phase]; rfl)
      cases again.symm.trans held
      cases waits.symm.trans greeted

variable (inv : node.Accounted id)

include inv

theorem Accounted.loaded_step (undisturbed : node.Undisturbed id event)
    (call : IdentifyCall) (running : next.identifies id = some call) (phase : call.phase = .loaded) :
    (∀ entry, call.detached.count entry ≤ next.detached.count entry) ∧
    ∀ listing ∈ next.listed, ∀ guildID ∈ call.guilds, listing.route = .guild guildID →
      listing.revision ≤ call.loaded guildID := by
  cases identifies_transition transition running with
  | same current =>
    obtain ⟨since, reflected⟩ := inv.loaded call current phase
    refine ⟨fun entry => (since entry).trans (count_detached_transition transition entry), ?_⟩
    intro listing listed guildID member route
    rcases listed_transition transition listed with earlier | ⟨other, found, heard, lists, sessions, rfl, _⟩
    · exact reflected listing earlier guildID member route
    · exact undisturbed other heard found lists sessions call current phase guildID member route
  | loaded _ committed detached next_eq =>
    subst next_eq
    refine ⟨fun entry => detached ▸ le_rfl, fun listing listed guildID _ route => ?_⟩
    have past := inv.past.listed listing listed
    rw [route] at past
    rw [committed]
    exact past
  | registered _ _ _ result =>
    subst result
    cases phase
  | advanced _ result _ started =>
    subst result
    exact absurd phase started

omit transition in
/-- A session is served from its registration on: nothing newer than the loaded state has been
listed, and no detachment knows the session. -/
theorem Accounted.serves_registered {call : IdentifyCall}
    (current : node.identifies id = some call) (phase : call.phase = .loaded) (fresh : node.reg.heap ref = none)
    (got : PendingDispatch → Prop) :
    ({ node with reg := node.reg.addSession ref (call.identity.session cfg call.guilds) }.setIdentify id
      { call with phase := .registered ref }).Serves (call.client ref) got where
  held := ⟨_, heap_addSession.trans (if_pos rfl), rfl⟩
  since := (inv.loaded call current phase).1
  detaching other found running unindexes := absurd fresh (inv.detachments.named other found running ref unindexes)
  indexed _ member _ _ := SetIndex.has_addAll.mpr (.inr ⟨member, rfl⟩)
  served listing listed guildID member route _ _ :=
    .inl ((inv.loaded call current phase).2 listing listed guildID member route)

theorem Accounted.serving_step (call : IdentifyCall) (ref : SessionRef)
    (running : next.identifies id = some call)
    (phase : call.phase = .registered ref ∨ call.phase = .retained ref) :
    next.Serves (call.client ref) (next.Buffered ref) := by
  -- a call that was serving the session before the step goes on serving it
  have served : ∀ before, node.identifies id = some before → before.client ref = call.client ref →
      before.phase = .registered ref ∨ before.phase = .retained ref →
      next.Serves (call.client ref) (next.Buffered ref) := by
    intro before current same serving
    have of : ref ∈ before.phase.ref := by
      rcases serving with found | found <;> (rw [found]; rfl)
    obtain ⟨session, held, waits, _⟩ := inv.waiting.waiting id before current ref of
    refine Serves.step transition (same ▸ inv.serving before ref current serving) inv.detachments.users
      inv.detachments.dropping ?_ ?_ ?_
    · intro other found guildIDs present unbound
      cases inv.waiting.distinct id other before found ref current present of (by rw [unbound]; rfl)
      cases current.symm.trans present
      rcases serving with found | found <;> cases found.symm.trans unbound
    · rintro item ⟨_, again, buffers⟩
      cases again.symm.trans held
      obtain ⟨after, present, evolves⟩ := inv.waiting.evolves transition current running of held
      exact ⟨after, present, evolves.buffers item buffers⟩
    · intro other found gate jobs queue rest eventType payload moment _ handed
      rw [handed]
      exact buffered_offer held waits
  cases identifies_transition transition running with
  | same current => exact served call current rfl phase
  | loaded loaded =>
    rcases phase with found | found <;> cases loaded.symm.trans found
  | registered current loaded fresh result _ next_eq =>
    subst next_eq result
    rcases phase with found | found <;> cases found
    exact inv.serves_registered current loaded fresh _
  | advanced current result _ _ serving =>
    subst result
    exact served _ current rfl (.inl (serving ref phase))

theorem Accounted.served_step (record : Identified) (member : record ∈ next.identified) (call : record.call = id) :
    next.Welcomed record.client.ref record.payload ∧
      next.Serves record.client (AfterReady (next.frames record.client.ref) record.payload) := by
  rcases identified_transition transition member with
    earlier | ⟨other, identify, ref, session, payload, moments, current, phase, held, sound, rfl, next_eq⟩
  · obtain ⟨welcomed, serves⟩ := inv.served record earlier call
    refine ⟨welcomed.step transition inv.waiting,
      serves.step transition inv.detachments.users inv.detachments.dropping ?_ ?_ ?_⟩
    · intro other found guildIDs present unbound
      obtain ⟨session, held, greeted⟩ := welcomed.held
      obtain ⟨_, again, waits, _⟩ :=
        inv.waiting.waiting other found present record.client.ref (by rw [unbound]; rfl)
      cases again.symm.trans held
      cases waits.symm.trans greeted
    · intro item received
      obtain ⟨more, grown⟩ := (grows_transition transition).frames record.client.ref
      rw [grown]
      exact received.append more
    · intro other found gate jobs queue rest eventType payload moment _ handed
      rw [handed]
      exact afterReady_offer ⟨record.client.ref, eventType, payload⟩ welcomed
  · cases call
    have frames : next.frames ref = node.frames ref ++ owed cfg session (.ready payload moments) := by
      rw [next_eq]
      exact frames_onSession cfg held _
    obtain ⟨ready, flushed⟩ := owed_ready cfg sound payload moments (node.frames ref)
    rw [← frames] at ready flushed
    refine ⟨⟨ready, ?_⟩, Serves.step transition (inv.serving identify ref current (.inr phase))
      inv.detachments.users inv.detachments.dropping ?_ ?_ ?_⟩
    · rw [next_eq]
      refine ⟨_, (heap_onSession ..).trans ((if_pos rfl).trans (congrArg _ held)), ?_⟩
      exact stepSession_ready sound payload moments
    · intro other found guildIDs present unbound
      cases inv.waiting.distinct other _ found identify ref present current (by rw [unbound]; rfl)
        (by rw [phase]; rfl)
      cases current.symm.trans present
      cases phase.symm.trans unbound
    · rintro item ⟨_, again, buffers⟩
      cases again.symm.trans held
      exact flushed item buffers
    · -- the step appended READY, so it handed no event over
      intro other found gate jobs queue rest eventType offered moment _ handed
      have records := congrArg DispatchNode.identified (next_eq.symm.trans handed)
      exact absurd records (cons_ne_self _ _)

omit transition in
theorem Accounted.step (undisturbed : node.Undisturbed id event)
    (step : (dispatchMachine cfg).step node event = some next) : next.Accounted id :=
  have transition := transition_step step
  { waiting := inv.waiting.step transition
    past := inv.past.step transition
    detachments := inv.detachments.step transition
    loaded := inv.loaded_step transition undisturbed
    serving := inv.serving_step transition
    served := inv.served_step transition }

end

end DispatchNode

end Cordis.Session
