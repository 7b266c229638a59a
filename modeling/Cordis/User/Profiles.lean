import Cordis.Go.Result
import Cordis.Machine.RowTable
import Cordis.Machine.Service
import Cordis.Outbox.Enqueue

/-! # Updates of user profiles

A profile is updated by one statement, which waits for the lock of the profile's row and returns the new
row. The event with that row is written to the outbox by the same transaction. The time of the update is
read from the clock of the node before the statement is sent, so before its wait.

Texts are those that have passed the checks on names and bios, and the answer of the media service for an
asset comes with the call.
-/

namespace Cordis.User

open Go Outbox

/-- A row of `user_profiles`. -/
structure UserProfile where
  userID : ℤ
  username : String
  name : String
  bio : String := ""
  avatarAssetID : ℤ := 0
  createdAt : ℤ := 0
  updatedAt : ℤ := 0
  deleted : Bool := false
deriving DecidableEq, Repr

inductive UserError where
  | invalidArgument (message : String)
  | notFound
  | internal
deriving DecidableEq, Repr

section Events

/-- The data of an event. Identifiers are texts; here they stand for what `strconv.ParseInt` makes of them,
and an avatar may be absent. -/
structure UserProfilePayload where
  userID : Option ℤ
  name : String
  bio : String
  avatarAssetID : Option (Option ℤ)
  createdAt : ℤ
  updatedAt : ℤ
  username : String
deriving DecidableEq, Repr

structure UserEvent where
  type : String
  data : UserProfilePayload
deriving DecidableEq, Repr

def eventTypeUserProfileUpdated : String := "user.profile.updated"

def streamKey (userID : ℤ) : String := toString userID

def userProfilePayloadFromModel (profile : UserProfile) : UserProfilePayload where
  userID := some profile.userID
  name := profile.name
  bio := profile.bio
  avatarAssetID := some (some profile.avatarAssetID)
  createdAt := profile.createdAt
  updatedAt := profile.updatedAt
  username := profile.username

def newUserProfileUpdatedEvent (profile : UserProfile) : UserEvent where
  type := eventTypeUserProfileUpdated
  data := userProfilePayloadFromModel profile

end Events

section Requests

inductive UserRequest where
  | updateUserProfile (userID : ℤ) (name bio : Option String) (avatarAssetID : Option ℤ)
  | updateUsername (userID : ℤ) (username : String)
  | completeAvatarUpload (userID uploadID : ℤ)
deriving DecidableEq, Repr

/-- A request with what its call reads outside the database: the clock, the asset that the media service
has for it, and the number and time of the event. -/
structure UserCall where
  request : UserRequest
  now : ℤ
  outboxID : ℤ
  mounted : Except UserError ℤ := .error .notFound
  enqueuedAt : ℤ := 0

/-- What an update statement sets. -/
inductive ProfileChange where
  | profile (name bio : Option String) (avatarAssetID : Option ℤ)
  | avatar (assetID : ℤ)
  | username (username : String)
deriving DecidableEq, Repr

def ProfileChange.apply (now : ℤ) (row : UserProfile) : ProfileChange → UserProfile
  | .profile name bio avatarAssetID =>
    { row with
      name := name.getD row.name
      bio := bio.getD row.bio
      avatarAssetID := avatarAssetID.getD row.avatarAssetID
      updatedAt := now }
  | .avatar assetID => { row with avatarAssetID := assetID, updatedAt := now }
  | .username newName => { row with username := newName, updatedAt := now }

def mountAvatarAsset (call : UserCall) (userID assetID : ℤ) : Except UserError ℤ := do
  require (0 < userID) (.invalidArgument "user id is required")
  require (0 < assetID) (.invalidArgument "upload id is required")
  call.mounted

/-- The asset for an avatar; zero removes it. -/
def requestedAvatar (call : UserCall) (userID : ℤ) : Option ℤ → Except UserError (Option ℤ)
  | none => .ok none
  | some assetID => do
    require (0 ≤ assetID) (.invalidArgument "avatar asset id must be non-negative")
    if 0 < assetID then (mountAvatarAsset call userID assetID).map some else .ok (some 0)

/-- The change that a request asks for. -/
def changeOf (call : UserCall) : UserRequest → Except UserError (ℤ × ProfileChange)
  | .updateUserProfile userID name bio avatarAssetID => do
    require (0 < userID) (.invalidArgument "user id is required")
    require (name.isSome ∨ bio.isSome ∨ avatarAssetID.isSome) (.invalidArgument "at least one profile field is required")
    let assetID ← requestedAvatar call userID avatarAssetID
    return (userID, .profile name bio assetID)
  | .updateUsername userID username => do
    require (0 < userID) (.invalidArgument "user id is required")
    return (userID, .username username)
  | .completeAvatarUpload userID uploadID => do
    let assetID ← mountAvatarAsset call userID uploadID
    return (userID, .avatar assetID)

end Requests

section Store

structure UserDatabase where
  profiles : RowTable ℕ UserProfile.userID
  outbox : Tables UserEvent := {}

inductive UserStatement where
  | update (userID : ℤ) (change : ProfileChange) (now : ℤ)
  | outbox (call : OutboxCall UserEvent)

/-- An update returns the new row, if it has found one. -/
def UserStatement.Reply : UserStatement → Type
  | .update .. => Option UserProfile
  | .outbox _ => Unit

namespace UserDatabase

variable (db : UserDatabase) (tx : ℕ)

/-- The statement waits for the lock of the row and then takes the newest version. The column of the avatar
is checked. -/
def update (userID : ℤ) (change : ProfileChange) (now : ℤ) : Option (UserDatabase × Option UserProfile) :=
  match (db.profiles.find (some tx) userID).filter fun row => !row.deleted with
  | none => some (db, none)
  | some row =>
    if 0 ≤ (change.apply now row).avatarAssetID then
      (db.profiles.insert tx (change.apply now row)).map fun profiles => ({ db with profiles }, some (change.apply now row))
    else none

def exec : (statement : UserStatement) → Option (UserDatabase × statement.Reply)
  | .update userID change now => db.update tx userID change now
  | .outbox call => (db.outbox.exec tx call).map fun outbox => ({ db with outbox }, ())

def commit : UserDatabase where
  profiles := db.profiles.commit tx
  outbox := db.outbox.settle tx

def rollback : UserDatabase where
  profiles := db.profiles.rollback tx
  outbox := db.outbox.rollback tx

end UserDatabase

end Store

section Service

abbrev UserScript := Script UserStatement.Reply UserError

def sendUpdate (userID : ℤ) (change : ProfileChange) (now : ℤ) : UserScript (Option UserProfile) :=
  Script.perform (UserStatement.update userID change now)

def issue (call : OutboxCall UserEvent) : UserScript Unit := Script.perform (UserStatement.outbox call)

variable (shardCount : ℕ) (call : UserCall)

def profileDraft (profile : UserProfile) : String × Draft UserEvent :=
  (streamKey profile.userID, ⟨call.outboxID, call.enqueuedAt, newUserProfileUpdatedEvent profile⟩)

def enqueueUserEvents (drafts : List (String × Draft UserEvent)) : UserScript Unit :=
  enqueue shardCount .internal issue drafts

/-- The transaction of an update. -/
def updateProfile (userID : ℤ) (change : ProfileChange) : UserScript Unit := do
  let updated ← sendUpdate userID change call.now
  let profile ← Script.lift (updated.elim (.error .notFound) .ok)
  enqueueUserEvents shardCount [profileDraft call profile]

def userScript : UserScript Unit := do
  let (userID, change) ← Script.lift (changeOf call call.request)
  updateProfile shardCount call userID change

def userService : Service UserDatabase UserCall UserStatement.Reply UserError Unit where
  script := userScript shardCount
  exec := UserDatabase.exec
  commit := UserDatabase.commit
  rollback := UserDatabase.rollback

abbrev UserServiceState := ServiceState UserDatabase UserCall UserStatement.Reply UserError Unit

end Service

end Cordis.User
