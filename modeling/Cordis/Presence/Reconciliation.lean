import Cordis.Machine.Run
import Cordis.Machine.Versioned

/-! # The presence of a user

The calls for one user run one after the other under the user's lock, on any nodes. A call may initialize or
change the preference, write or remove a session, and then reconciles: it aggregates the sessions that are live
at its time, compares with the stored snapshot, and stores a changed status under a new version. All calls but
`ResolveUsersPresence` publish the change.

A call is the list of its effects, and a crash is a call that ends after some of them. Sessions may be gone at
any time, and a version may be any number that a Snowflake node returns. A call reads one clock. Gateways, device
types and client states do not enter the status and are left out.
-/

namespace Cordis.Presence

inductive PresenceStatus where
  | offline | online | idle | dnd | invisible
deriving DecidableEq, Repr

/-- What a client may select. -/
abbrev Selectable := { status : PresenceStatus // status ≠ .offline }

structure UserSession where
  sessionID : String
  lastSeenAt : ℤ
  expiresAt : ℤ
deriving DecidableEq, Repr

structure UserPresence where
  status : PresenceStatus
  lastSeenAt : ℤ
  version : ℤ := 0
deriving DecidableEq, Repr

structure UserPresencePreference where
  status : PresenceStatus
  version : ℤ := 0
deriving DecidableEq, Repr

def UserPresence.stamp (presence : UserPresence) : Stamped PresenceStatus := (presence.status, presence.version)

def UserPresencePreference.stamp (preference : UserPresencePreference) : Stamped PresenceStatus :=
  (preference.status, preference.version)

/-- The user's keys in Redis, and from `saved` on what a call remembers between its effects. -/
structure UserState where
  sessions : List UserSession := []
  preferenceHash : Option UserPresencePreference := none
  snapshotHash : Option UserPresence := none
  saved : Option UserPresencePreference := none
  selected : Bool := false
  reconciled : Option UserPresence := none
  changed : Bool := false
  /-- For the statements only: the events published, newest first, and all that events and responses have shown. -/
  events : List (Stamped PresenceStatus) := []
  shown : List (Stamped PresenceStatus) := []
  preferencesShown : List (Stamped PresenceStatus) := []
deriving DecidableEq

def maxInt64 : ℤ := 9223372036854775807

/-- A version above the previous one, whatever the node's Snowflake returns; none when there is none left. -/
def nextVersion (snowflake previous : ℤ) : Option ℤ :=
  if previous < snowflake then some snowflake else if previous = maxInt64 then none else some (previous + 1)

def aggregateUserPresence (preference : UserPresencePreference) (sessions : List UserSession) : UserPresence where
  status := if sessions ≠ [] ∧ preference.status ≠ .invisible then
    (if preference.status = .offline then .online else preference.status) else .offline
  lastSeenAt := sessions.foldl (fun latest session => max latest session.lastSeenAt) 0

namespace UserState

variable (state : UserState)

/-- A hash that does not parse as a preference counts as unknown. -/
def getUserPresencePreference : Option UserPresencePreference :=
  state.preferenceHash.filter fun preference => preference.status ≠ .offline ∧ 0 < preference.version

def getUserPresenceSnapshot : Option UserPresence :=
  state.snapshotHash.filter fun presence => presence.status ≠ .invisible ∧ 0 < presence.version

def liveSessions (now : ℤ) : List UserSession := state.sessions.filter fun session => now < session.expiresAt

def resolveUserPresence (now : ℤ) : UserPresence :=
  aggregateUserPresence (state.getUserPresencePreference.getD ⟨.online, 0⟩) (state.liveSessions now)

def saveUserPresencePreference (preference : UserPresencePreference) : UserState :=
  { state with preferenceHash := some preference, saved := some preference }

def ensureUserPresencePreference (initial : Selectable) (snowflake : ℤ) : Option UserState :=
  match state.getUserPresencePreference with
  | some preference => some { state with saved := some preference }
  | none => (nextVersion snowflake 0).map fun version => state.saveUserPresencePreference ⟨initial, version⟩

def selectStatus (status : Selectable) (snowflake : ℤ) : Option UserState :=
  state.saved.bind fun preference =>
    if preference.status = status then some state
    else (nextVersion snowflake preference.version).map fun version =>
      { state.saveUserPresencePreference ⟨status, version⟩ with selected := true }

def writeUserSession (session : UserSession) : UserState :=
  { state with sessions := session :: state.sessions.filter fun other => other.sessionID ≠ session.sessionID }

/-- A user without sessions was last seen when the stored snapshot says. -/
def lastSeenAt (now : ℤ) : ℤ :=
  let resolved := state.resolveUserPresence now
  if resolved.status = .offline ∧ resolved.lastSeenAt = 0 then
    (state.getUserPresenceSnapshot.map UserPresence.lastSeenAt).getD 0 else resolved.lastSeenAt

def reconcileUserPresence (now snowflake : ℤ) : Option UserState :=
  let resolved := state.resolveUserPresence now
  let previous := state.getUserPresenceSnapshot
  let changed := decide (previous.map UserPresence.status ≠ some resolved.status)
  let previousVersion := (previous.map UserPresence.version).getD 0
  (if changed then nextVersion snowflake previousVersion else some previousVersion).map fun version =>
    let presence : UserPresence := ⟨resolved.status, state.lastSeenAt now, version⟩
    { state with
      sessions := state.liveSessions now
      snapshotHash := if changed ∨ previous.map UserPresence.lastSeenAt ≠ some (state.lastSeenAt now)
        then some presence else state.snapshotHash
      reconciled := some presence
      changed }

end UserState

/-- One effect of a call. -/
inductive Effect where
  | ensurePreference (initial : Selectable) (snowflake : ℤ)
  | selectStatus (status : Selectable) (snowflake : ℤ)
  | publishPreference
  | upsertSession (sessionID : String) (now expiresAt : ℤ)
  | updateSession (sessionID : String) (now expiresAt : ℤ)
  | removeSession (sessionID : String)
  | reconcile (now snowflake : ℤ)
  | publish
  | respond
  | respondPreference

/-- An effect that fails ends the call. -/
def UserState.perform (state : UserState) : Effect → Option UserState
  | .ensurePreference initial snowflake => state.ensureUserPresencePreference initial snowflake
  | .selectStatus status snowflake => state.selectStatus status snowflake
  | .publishPreference => some (if state.selected then
      { state with preferencesShown := (state.saved.map (·.stamp)).toList ++ state.preferencesShown } else state)
  | .upsertSession sessionID now expiresAt => some (state.writeUserSession ⟨sessionID, now, expiresAt⟩)
  | .updateSession sessionID now expiresAt =>
    some (if (state.liveSessions now).any fun session => session.sessionID = sessionID then
      state.writeUserSession ⟨sessionID, now, expiresAt⟩ else state)
  | .removeSession sessionID =>
    some { state with sessions := state.sessions.filter fun session => session.sessionID ≠ sessionID }
  | .reconcile now snowflake => state.reconcileUserPresence now snowflake
  | .publish => some (if state.changed then { state with
      events := (state.reconciled.map (·.stamp)).toList ++ state.events
      shown := (state.reconciled.map (·.stamp)).toList ++ state.shown } else state)
  | .respond => some { state with shown := (state.reconciled.map (·.stamp)).toList ++ state.shown }
  | .respondPreference =>
    some { state with preferencesShown := (state.saved.map (·.stamp)).toList ++ state.preferencesShown }

def UserState.performAll (state : UserState) : List Effect → UserState
  | [] => state
  | effect :: rest =>
    match state.perform effect with
    | none => state
    | some next => next.performAll rest

inductive Call where
  | register (sessionID : String) (initial : Option Selectable) (now expiresAt snowflake reconciling : ℤ)
  | refresh (sessionID : String) (now expiresAt snowflake reconciling : ℤ)
  | update (sessionID : String) (status : Option Selectable) (clientState : Bool)
      (now expiresAt snowflake selecting reconciling : ℤ)
  | remove (sessionID : String) (now reconciling : ℤ)
  | resolve (now reconciling : ℤ)

def onlineStatus : Selectable := ⟨.online, nofun⟩

def Call.effects : Call → List Effect
  | .register sessionID initial now expiresAt snowflake reconciling =>
    [.ensurePreference (initial.getD onlineStatus) snowflake, .upsertSession sessionID now expiresAt,
      .reconcile now reconciling, .publish, .respond, .respondPreference]
  | .refresh sessionID now expiresAt snowflake reconciling =>
    [.ensurePreference onlineStatus snowflake, .upsertSession sessionID now expiresAt, .reconcile now reconciling,
      .publish, .respond]
  | .update sessionID status clientState now expiresAt snowflake selecting reconciling =>
    .ensurePreference onlineStatus snowflake ::
      (status.elim [] fun status => [.selectStatus status selecting, .publishPreference]) ++
      (if clientState then [.updateSession sessionID now expiresAt] else []) ++
      [.reconcile now reconciling, .publish, .respond, .respondPreference]
  | .remove sessionID now reconciling => [.removeSession sessionID, .reconcile now reconciling, .publish]
  | .resolve now reconciling => [.reconcile now reconciling, .respond]

inductive PresenceEvent where
  /-- A call of which the first effects happen; the rest is lost in a crash. -/
  | call (call : Call) (reached : ℕ)
  /-- `RefreshUserSessions` takes no lock and extends the sessions whose keys are still there. -/
  | refreshUserSessions (sessionIDs : List String) (now expiresAt : ℤ)
  /-- Redis drops the keys of the other sessions. -/
  | expire (kept : List String)

def UserState.step (state : UserState) : PresenceEvent → UserState
  | .call call reached =>
    { state with saved := none, selected := false, reconciled := none, changed := false }.performAll
      (call.effects.take reached)
  | .refreshUserSessions sessionIDs now expiresAt => { state with
      sessions := sessionIDs.map (fun sessionID => ⟨sessionID, now, expiresAt⟩) ++
        state.sessions.filter fun session => session.sessionID ∉ sessionIDs }
  | .expire kept => { state with sessions := state.sessions.filter fun session => session.sessionID ∈ kept }

def presenceMachine : Machine UserState PresenceEvent := Machine.total UserState.step

end Cordis.Presence
