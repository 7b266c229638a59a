import Cordis.Session.Buffering
import Cordis.Session.Registry

/-! # The frames of a session that is being identified

From `addSession` on a session is indexed and events are dispatched to it while `identify` still assembles
READY. They are buffered within two limits. `identify` then numbers READY and behind it what was buffered, and
from there on events are numbered as they come. An event that finds no room poisons the buffer for good;
`identify` then fails and takes the session out of the indexes again, as it does when one of its own steps
fails.
-/

namespace Cordis.Session

open SetIndex Pool List

/-- The session is in none of the maps of the node. -/
structure Registry.Unindexed (reg : Registry) (ref : SessionRef) : Prop where
  sessions : ∀ id, reg.sessions id ≠ some ref
  users : ∀ userID, ¬ reg.users.Has userID ref
  guilds : ∀ guildID, ¬ reg.guilds.Has guildID ref

/-- What an event counts for in the buffer. -/
def PendingDispatch.bytes (item : PendingDispatch) : ℕ := item.eventType.utf8ByteSize + item.payload.length

def bufferedBytes (items : List PendingDispatch) : ℕ := items.foldl (fun total item => total + item.bytes) 0

/-- How far `identify` is, after `addSession`. -/
inductive IdentifyStage where
  | waiting
  | returned (ready : Bytes)
  | failed
  | unbound (guildIDs : Finset ℤ)
  | ended
deriving DecidableEq

structure Identification where
  reg : Registry
  stage : IdentifyStage := .waiting
  /-- For the statements only: the frames numbered, what dispatches were accepted, and whether one was not. -/
  frames : List ConnectResponse := []
  accepted : List PendingDispatch := []
  refused : Bool := false

inductive IdentificationEvent where
  | dispatch (eventType : String) (payload : Bytes) (moment : Moment)
  | ready (payload : Bytes) (moments : ℕ → Moment)
  /-- One of the calls that READY is assembled from fails. -/
  | fail
  | unbind
  | unregister

namespace Identification

section Machine

variable (cfg : NodeConfig) (ref : SessionRef) (state : Identification)

/-- A section of the session, with the frames it numbers. -/
def onSession (session : LogicalSession) (event : SessionEvent) : Identification :=
  { state with
    reg := { state.reg with heap := state.reg.heap.set ref (stepSession cfg session event) }
    frames := state.frames ++ owed cfg session event }

def dispatched (session : LogicalSession) (eventType : String) (payload : Bytes) (moment : Moment) : Identification :=
  let taken := (dispatchSession cfg session eventType payload moment).2
  { state.onSession cfg ref session (.dispatch eventType payload moment) with
    accepted := if taken then state.accepted ++ [⟨eventType, payload⟩] else state.accepted
    refused := state.refused || !taken }

def step (event : IdentificationEvent) : Option Identification :=
  match state.reg.heap ref with
  | none => none
  | some session =>
    match event, state.stage with
    | .dispatch eventType payload moment, _ => some (state.dispatched cfg ref session eventType payload moment)
    | .ready payload moments, .waiting =>
      if session.pendingDispatchOverflow then some { state with stage := .failed }
      else some { state.onSession cfg ref session (.ready payload moments) with stage := .returned payload }
    | .fail, .waiting => some { state with stage := .failed }
    | .unbind, .failed =>
      some { state.onSession cfg ref session .remove with stage := .unbound session.guilds }
    | .unregister, .unbound guildIDs =>
      some { state with reg := state.reg.unregister ref guildIDs, stage := .ended }
    | _, _ => none

def machine : Machine Identification IdentificationEvent where
  step := step cfg ref

end Machine

variable {cfg : NodeConfig} {ref : SessionRef} {state next : Identification} {session : LogicalSession}
  {event : IdentificationEvent}

/-- While READY is awaited nothing is numbered, and the buffer has everything that was accepted unless something
was refused. -/
structure Waits (cfg : NodeConfig) (state : Identification) (session : LogicalSession) : Prop where
  initializing : session.initializing = true
  unreturned : ∀ ready, state.stage ≠ .returned ready
  unnumbered : state.frames = []
  poisoned : session.pendingDispatchOverflow = state.refused
  buffered : state.refused = false → session.pendingDispatches = state.accepted
  count : session.pendingDispatches.length ≤ cfg.pendingDispatchLimit
  total : bufferedBytes session.pendingDispatches = session.pendingDispatchBytes
  bytes : session.pendingDispatchBytes ≤ cfg.pendingDispatchByteLimit

/-- After READY everything accepted is numbered behind it. -/
structure Greeted (state : Identification) (session : LogicalSession) (ready : Bytes) : Prop where
  initializing : session.initializing = false
  returned : state.stage = .returned ready
  unrefused : state.refused = false
  numbered : state.frames = numberFrom 0 (⟨gatewayEventReady, ready⟩ :: state.accepted)
  flushed : session.pendingDispatches = []

/-- The session and what has been numbered for it. -/
structure Buffer (cfg : NodeConfig) (state : Identification) (session : LogicalSession) : Prop where
  tracks : Tracks cfg (session, state.frames)
  phase : Waits cfg state session ∨ ∃ ready, Greeted state session ready

/-- The maps have the session at most where `addSession` has put it, and the user's guilds are the session's. -/
structure Indexed (identity : Identity) (guilds : Finset ℤ) (ref : SessionRef) (state : Identification)
    (session : LogicalSession) : Prop where
  registered : state.reg.sessions session.id = some ref
  id : session.id = identity.sessionID
  userID : session.userID = identity.userID
  carried : session.guilds = guilds
  sessions : ∀ other, state.reg.sessions other = some ref → other = identity.sessionID
  users : ∀ userID, state.reg.users.Has userID ref → userID = identity.userID
  joined : ∀ guildID, state.reg.guilds.Has guildID ref → guildID ∈ guilds
  unbound : ∀ guildIDs, state.stage = .unbound guildIDs → guildIDs = guilds

theorem numberFrom_append (sequence : ℕ) (items : List PendingDispatch) (item : PendingDispatch) :
    numberFrom sequence (items ++ [item]) = numberFrom sequence items ++ numberFrom (sequence + items.length) [item] := by
  induction items generalizing sequence with
  | nil => rfl
  | cons head rest ih =>
    rw [List.cons_append, numberFrom_cons, numberFrom_cons, ih, List.length_cons, Nat.add_right_comm, Nat.add_assoc]
    rfl

theorem length_numberFrom (sequence : ℕ) (items : List PendingDispatch) :
    (numberFrom sequence items).length = items.length := by
  simp [numberFrom]

/-- A session has numbered as many frames as its sequence says. -/
theorem Buffer.sequence (buffer : Buffer cfg state session) : session.sequence = state.frames.length := by
  obtain ⟨l, log, represents⟩ := buffer.tracks
  rw [represents.sequence, log]

/-- What a dispatch to a session that waits for READY does. -/
theorem dispatchSession_waiting (initializing : session.initializing = true) (eventType : String) (payload : Bytes)
    (moment : Moment) :
    session.pendingDispatchOverflow = true ∧ dispatchSession cfg session eventType payload moment = (session, false) ∨
    dispatchSession cfg session eventType payload moment = ({ session with
      pendingDispatchOverflow := true, pendingDispatches := [], pendingDispatchBytes := 0 }, false) ∨
    session.pendingDispatchOverflow = false ∧ session.pendingDispatches.length < cfg.pendingDispatchLimit ∧
      session.pendingDispatchBytes + PendingDispatch.bytes ⟨eventType, payload⟩ ≤ cfg.pendingDispatchByteLimit ∧
      dispatchSession cfg session eventType payload moment = ({ session with
        pendingDispatches := session.pendingDispatches ++ [⟨eventType, payload⟩]
        pendingDispatchBytes := session.pendingDispatchBytes + PendingDispatch.bytes ⟨eventType, payload⟩ }, true) := by
  unfold dispatchSession
  rw [if_pos initializing]
  by_cases overflow : session.pendingDispatchOverflow = true
  · exact .inl ⟨overflow, if_pos overflow⟩
  · rw [if_neg overflow]
    dsimp only
    split_ifs with full
    · exact .inr (.inl rfl)
    · obtain ⟨room, fits⟩ := not_or.mp full
      refine .inr (.inr ⟨Bool.eq_false_of_not_eq_true overflow, by omega, ?_, rfl⟩)
      dsimp only [PendingDispatch.bytes]
      omega

/-- A dispatch to a session that waits for READY is buffered if there is room, and poisons the buffer if not. -/
theorem Waits.dispatched (waits : Waits cfg state session) (eventType : String) (payload : Bytes) (moment : Moment) :
    Waits cfg (state.dispatched cfg ref session eventType payload moment)
      (dispatchSession cfg session eventType payload moment).1 := by
  obtain ⟨initializing, unreturned, unnumbered, poisoned, buffered, count, total, bytes⟩ := waits
  have unowed : state.frames ++ owed cfg session (.dispatch eventType payload moment) = [] := by
    simp [owed, initializing, unnumbered]
  unfold Identification.dispatched onSession
  rcases @dispatchSession_waiting cfg session initializing eventType payload moment with
    ⟨overflow, same⟩ | poisons | ⟨sound, room, fits, joins⟩
  · rw [same]
    exact ⟨initializing, unreturned, unowed, by simp [overflow], by simp, count, total, bytes⟩
  · rw [poisons]
    exact ⟨initializing, unreturned, unowed, by simp, by simp, Nat.zero_le _, rfl, Nat.zero_le _⟩
  · rw [joins]
    refine ⟨initializing, unreturned, unowed, by simp [poisoned], fun _ => ?_, ?_, ?_, fits⟩
    · simp [buffered (poisoned.symm.trans sound)]
    · rw [length_append]
      exact room
    · rw [← total]
      exact foldl_append ..

/-- A dispatch after READY is numbered next. -/
theorem Greeted.dispatched {ready : Bytes} (greeted : Greeted state session ready)
    (sequence : session.sequence = state.frames.length) (eventType : String) (payload : Bytes) (moment : Moment) :
    Greeted (state.dispatched cfg ref session eventType payload moment)
      (dispatchSession cfg session eventType payload moment).1 ready := by
  obtain ⟨initializing, returned, unrefused, numbered, flushed⟩ := greeted
  have same := Leaves.appendDispatchLocked cfg session eventType payload moment
  simp only [Identification.dispatched, onSession, dispatchSession, owed, initializing, Bool.false_eq_true, ↓reduceIte]
  refine ⟨same.initializing.trans initializing, returned, by simp [unrefused], ?_, same.pendingDispatches.trans flushed⟩
  simp only [← List.cons_append, numberFrom_append]
  rw [sequence, numbered, length_numberFrom, Nat.zero_add]

/-- READY is numbered first, and what was buffered behind it. -/
theorem Waits.ready (waits : Waits cfg state session) (sound : session.pendingDispatchOverflow = false)
    (sequence : session.sequence = state.frames.length) (payload : Bytes) (moments : ℕ → Moment) :
    Greeted { state.onSession cfg ref session (.ready payload moments) with stage := .returned payload }
      (stepSession cfg session (.ready payload moments)) payload := by
  have unrefused := waits.poisoned.symm.trans sound
  refine ⟨stepSession_ready sound payload moments, rfl, unrefused, ?_, ?_⟩
  · simp [onSession, owed, sound, sequence, waits.unnumbered, waits.buffered unrefused]
  · simp [stepSession, readyLocked, sound, Except.toOption]

/-- What the session is about to do is kept when only the stage moves, before READY. -/
theorem Waits.moved (waits : Waits cfg state session) {stage : IdentifyStage} (unreturned : ∀ ready, stage ≠ .returned ready) :
    Waits cfg { state with stage } session :=
  { waits with unreturned }

section Steps

variable {identity : Identity} {guilds : Finset ℤ} {after : LogicalSession}

/-- A section of the session changes none of the maps. -/
theorem Indexed.moved (indexed : Indexed identity guilds ref state session) (same : SameIdentity session after)
    (heap : ∃ heap, next.reg = { state.reg with heap })
    (unbound : ∀ guildIDs, next.stage = .unbound guildIDs → guildIDs = guilds) :
    Indexed identity guilds ref next after := by
  obtain ⟨_, heap⟩ := heap
  obtain ⟨registered, id, userID, carried, sessions, users, joined, _⟩ := indexed
  constructor
  · rw [heap, same.id]
    exact registered
  · exact same.id.trans id
  · exact same.userID.trans userID
  · exact same.guilds.trans carried
  · simpa only [heap] using sessions
  · simpa only [heap] using users
  · simpa only [heap] using joined
  · exact unbound

theorem Indexed.unregister (indexed : Indexed identity guilds ref state session)
    (held : state.reg.heap ref = some session) : (state.reg.unregister ref guilds).Unindexed ref := by
  obtain ⟨registered, id, userID, _, sessions, users, joined, _⟩ := indexed
  unfold Registry.unregister
  rw [Registry.live_eq_some.mpr ⟨held, registered⟩]
  constructor
  · intro other found
    by_cases same : other = session.id
    · subst same
      cases (drop_self ..).symm.trans found
    · exact same ((sessions other (of_drop found)).trans id.symm)
  · intro other has
    obtain ⟨before, kept⟩ := has_remove.mp has
    exact kept ⟨(users other before).trans userID.symm, rfl⟩
  · intro guildID has
    obtain ⟨before, kept⟩ := has_removeAll.mp has
    exact kept ⟨joined guildID before, rfl⟩

/-- The session, what has been numbered for it and where it is indexed. -/
structure Holds (cfg : NodeConfig) (identity : Identity) (guilds : Finset ℤ) (ref : SessionRef) (state : Identification)
    (session : LogicalSession) : Prop where
  held : state.reg.heap ref = some session
  buffer : Buffer cfg state session
  indexed : state.stage = .ended ∧ state.reg.Unindexed ref ∨
    state.stage ≠ .ended ∧ Indexed identity guilds ref state session

section

variable (holds : Holds cfg identity guilds ref state session)

include holds

/-- A section of the session that `identify` is not in the middle of changing. -/
theorem Holds.dispatched (eventType : String) (payload : Bytes) (moment : Moment) :
    Holds cfg identity guilds ref (state.dispatched cfg ref session eventType payload moment)
      (dispatchSession cfg session eventType payload moment).1 := by
  refine ⟨set_self .., ⟨tracks_step cfg holds.buffer.tracks (.dispatch eventType payload moment), ?_⟩, ?_⟩
  · rcases holds.buffer.phase with waits | ⟨ready, greeted⟩
    · exact .inl (waits.dispatched ..)
    · exact .inr ⟨ready, greeted.dispatched holds.buffer.sequence ..⟩
  · refine holds.indexed.imp (fun ⟨ended, unindexed⟩ => ⟨ended, unindexed.1, unindexed.2, unindexed.3⟩)
      fun ⟨goesOn, indexed⟩ => ⟨goesOn, ?_⟩
    exact indexed.moved (sameIdentity_step cfg session (.dispatch eventType payload moment)) ⟨_, rfl⟩ indexed.unbound

/-- `identify` is over for good or has still the session where it was indexed. -/
theorem Holds.indexed_of (goesOn : state.stage ≠ .ended) : Indexed identity guilds ref state session :=
  (holds.indexed.resolve_left fun ended => goesOn ended.1).2

theorem Holds.waits_of (unreturned : ∀ ready, state.stage ≠ .returned ready) : Waits cfg state session :=
  holds.buffer.phase.resolve_right fun ⟨ready, greeted⟩ => unreturned ready greeted.returned

/-- `identify` gives up before READY. -/
theorem Holds.failed (waiting : state.stage = .waiting) :
    Holds cfg identity guilds ref { state with stage := .failed } session := by
  have waits := holds.waits_of fun ready returned => by cases waiting.symm.trans returned
  have indexed := holds.indexed_of fun ended => by cases waiting.symm.trans ended
  exact ⟨holds.held, ⟨holds.buffer.tracks, .inl (waits.moved nofun)⟩,
    .inr ⟨nofun, indexed.moved ⟨rfl, rfl, rfl⟩ ⟨_, rfl⟩ nofun⟩⟩

end

theorem holds_step (step : (machine cfg ref).step state event = some next)
    (holds : Holds cfg identity guilds ref state session) : ∃ after, Holds cfg identity guilds ref next after := by
  simp only [machine, Identification.step, holds.held] at step
  split at step
  · next eventType payload moment =>
    cases step
    exact ⟨_, holds.dispatched eventType payload moment⟩
  · next payload moments waiting =>
    split at step
    · cases step
      exact ⟨_, holds.failed waiting⟩
    · next sound =>
      cases step
      have waits := holds.waits_of fun ready returned => by cases waiting.symm.trans returned
      have indexed := holds.indexed_of fun ended => by cases waiting.symm.trans ended
      refine ⟨_, set_self .., ⟨tracks_step cfg holds.buffer.tracks (.ready payload moments), ?_⟩, ?_⟩
      · exact .inr ⟨payload, waits.ready (Bool.eq_false_of_not_eq_true sound) holds.buffer.sequence payload moments⟩
      · exact .inr ⟨by simp, indexed.moved (sameIdentity_step cfg session _) ⟨_, rfl⟩ (by simp)⟩
  · next waiting =>
    cases step
    exact ⟨_, holds.failed waiting⟩
  · next failed =>
    cases step
    have waits := holds.waits_of fun ready returned => by cases failed.symm.trans returned
    have indexed := holds.indexed_of fun ended => by cases failed.symm.trans ended
    refine ⟨unbindLocked session, set_self .., ⟨tracks_step cfg holds.buffer.tracks .remove, .inl ?_⟩, .inr ⟨by simp, ?_⟩⟩
    · obtain ⟨initializing, _, unnumbered, poisoned, buffered, count, total, bytes⟩ := waits
      have unowed : state.frames ++ owed cfg session .remove = [] := by simp [owed, unnumbered]
      unfold unbindLocked
      split
      · exact ⟨initializing, by simp, unowed, poisoned, buffered, count, total, bytes⟩
      · exact ⟨initializing, by simp, unowed, poisoned, buffered, count, total, bytes⟩
    · refine indexed.moved (sameIdentity_step cfg session .remove) ⟨_, rfl⟩ fun guildIDs unbound => ?_
      cases unbound
      exact indexed.carried
  · next guildIDs unbound =>
    cases step
    have waits := holds.waits_of fun ready returned => by cases unbound.symm.trans returned
    have indexed := holds.indexed_of fun ended => by cases unbound.symm.trans ended
    cases indexed.unbound guildIDs unbound
    refine ⟨session, ?_, ⟨holds.buffer.tracks, .inl ?_⟩, .inl ⟨rfl, indexed.unregister holds.held⟩⟩
    · dsimp only [Registry.unregister]
      split <;> exact holds.held
    · exact ⟨waits.initializing, by simp, waits.unnumbered, waits.poisoned, waits.buffered, waits.count, waits.total,
        waits.bytes⟩
  · cases step

variable (cfg identity guilds)

/-- `addSession` of a session that no map has. -/
def start (reg : Registry) (ref : SessionRef) : Identification where
  reg := reg.addSession ref (identity.session cfg guilds)

theorem holds_start {reg : Registry} {ref : SessionRef} (unindexed : reg.Unindexed ref) :
    Holds cfg identity guilds ref (start cfg identity guilds reg ref) (identity.session cfg guilds) := by
  refine ⟨set_self .., ⟨tracks_newSession .., .inl ?_⟩, .inr ⟨nofun, ?_⟩⟩
  · exact ⟨rfl, nofun, rfl, rfl, fun _ => rfl, Nat.zero_le _, rfl, Nat.zero_le _⟩
  · refine ⟨set_self .., rfl, rfl, rfl, fun other found => ?_, fun userID has => ?_, fun guildID has => ?_, nofun⟩
    · by_contra distinct
      exact unindexed.sessions other ((set_of_ne _ distinct _).symm.trans found)
    · exact ((has_add.mp has).resolve_left (unindexed.users userID)).1
    · exact ((has_addAll.mp has).resolve_left (unindexed.guilds guildID)).1

variable {cfg identity guilds}

/-- A poisoned `identify` has a way to its end, and it ends there. -/
theorem Holds.ends (holds : Holds cfg identity guilds ref state session) (refused : state.refused = true) :
    ∃ rest final, (machine cfg ref).run state rest = some final ∧ final.stage = .ended ∧
      (state.stage = .waiting → ∃ payload moments, rest.head? = some (.ready payload moments)) := by
  have unreturned : ∀ ready, state.stage ≠ .returned ready := fun ready returned => by
    rcases holds.buffer.phase with waits | ⟨_, greeted⟩
    · exact waits.unreturned ready returned
    · cases refused.symm.trans greeted.unrefused
  have overflow := (holds.waits_of unreturned).poisoned.trans refused
  have held := holds.held
  cases stage : state.stage with
  | waiting =>
    refine ⟨[.ready [] fun _ => ⟨0, true⟩, .unbind, .unregister], ?_⟩
    simp [Machine.run, machine, Identification.step, held, stage, overflow, onSession]
  | returned ready => exact (unreturned ready stage).elim
  | failed =>
    refine ⟨[.unbind, .unregister], ?_⟩
    simp [Machine.run, machine, Identification.step, held, stage, onSession]
  | unbound guildIDs =>
    refine ⟨[.unregister], ?_⟩
    simp [Machine.run, machine, Identification.step, held, stage]
  | ended => exact ⟨[], state, rfl, stage, by simp⟩

end Steps

end Identification

open Identification in
/-- However dispatches interleave with `identify`: if it returns, the session's frames are READY and then every
accepted dispatch, in order and numbered from one; the buffer stays within its limits; and after a dispatch was
refused `identify` cannot return, and ends with the session in none of the maps. -/
theorem ready_precedes_accepted (cfg : NodeConfig) (identity : Identity) (guilds : Finset ℤ) {reg : Registry}
    {ref : SessionRef} (unindexed : reg.Unindexed ref) {events : List IdentificationEvent} {final : Identification}
    (run : (machine cfg ref).run (start cfg identity guilds reg ref) events = some final) :
    (∀ ready, final.stage = .returned ready →
        final.frames = numberFrom 0 (⟨gatewayEventReady, ready⟩ :: final.accepted)) ∧
      (∃ session, final.reg.heap ref = some session ∧ Tracks cfg (session, final.frames) ∧
        session.pendingDispatches.length ≤ cfg.pendingDispatchLimit ∧
        bufferedBytes session.pendingDispatches ≤ cfg.pendingDispatchByteLimit) ∧
      (final.refused = true → (∀ ready, final.stage ≠ .returned ready) ∧
        ∃ rest ended, (machine cfg ref).run final rest = some ended ∧ ended.stage = .ended ∧
          (final.stage = .waiting → ∃ payload moments, rest.head? = some (.ready payload moments))) ∧
      (final.stage = .ended → final.reg.Unindexed ref) := by
  obtain ⟨session, holds⟩ : ∃ session, Holds cfg identity guilds ref final session := by
    refine @Machine.invariant_run _ _ (machine cfg ref) (fun state => ∃ session, Holds cfg identity guilds ref state session)
      (fun _ _ _ kept step => ?_) _ _ _ run ⟨_, holds_start cfg identity guilds unindexed⟩
    obtain ⟨_, kept⟩ := kept
    exact holds_step step kept
  refine ⟨fun ready returned => ?_, ⟨session, holds.held, holds.buffer.tracks, ?_⟩, fun refused => ⟨fun ready returned => ?_,
    holds.ends refused⟩, fun ended => ?_⟩
  · rcases holds.buffer.phase with waits | ⟨other, greeted⟩
    · exact (waits.unreturned ready returned).elim
    · cases returned.symm.trans greeted.returned
      exact greeted.numbered
  · rcases holds.buffer.phase with waits | ⟨_, greeted⟩
    · exact ⟨waits.count, waits.total ▸ waits.bytes⟩
    · simp [greeted.flushed, bufferedBytes]
  · rcases holds.buffer.phase with waits | ⟨_, greeted⟩
    · exact waits.unreturned ready returned
    · cases refused.symm.trans greeted.unrefused
  · exact (holds.indexed.resolve_right fun goesOn => goesOn.1 ended).2

theorem empty_registry_unindexed (ref : SessionRef) : ({} : Registry).Unindexed ref where
  sessions := nofun
  users := by simp [Has, SetIndex.empty]
  guilds := by simp [Has, SetIndex.empty]

/-- One dispatch before READY and one after it. -/
theorem buffered_dispatch_follows_ready :
    let moment : Moment := ⟨0, true⟩
    let identity : Identity := ⟨"session", 7, 1, "connection", "gateway", "generation"⟩
    ∃ final, (Identification.machine {} 1).run (Identification.start {} identity ∅ {} 1)
        [.dispatch "a" [] moment, .ready [] fun _ => moment, .dispatch "b" [] moment] = some final ∧
      final.frames = numberFrom 0 [⟨gatewayEventReady, []⟩, ⟨"a", []⟩, ⟨"b", []⟩] := by
  intro moment identity
  refine Machine.exists_run rfl fun run => ?_
  rw [(ready_precedes_accepted {} identity ∅ (empty_registry_unindexed 1) run).1 [] (by decide)]
  rfl

end Cordis.Session
