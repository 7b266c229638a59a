import Cordis.User.Profiles

/-! # The projection of profiles into guilds

Guilds keep the profiles of their members in rows of their own, with the nickname of the member. A worker
applies the profile events of the user service to the rows of the user in all guilds. An update of the rows
is skipped where they have the time of a later update.
-/

namespace Cordis.Guild

open User (UserEvent)

/-- A row of `guild_member_profiles`; the columns for the search are made from the texts. -/
structure GuildMemberProfile where
  guildID : ℤ
  userID : ℤ
  username : String := ""
  name : String := ""
  nickname : String := ""
  avatarAssetID : ℤ := 0
  profileUpdatedAt : ℤ := 0
deriving DecidableEq, Repr

/-- What an event says of a user. -/
structure ProfileUpdate where
  userID : ℤ
  username : String
  name : String
  profileUpdatedAt : ℤ
deriving DecidableEq, Repr

/-- Change the rows of a user that have no later time. -/
def updateProfiles (update : ProfileUpdate) (change : GuildMemberProfile → GuildMemberProfile)
    (rows : List GuildMemberProfile) : List GuildMemberProfile :=
  rows.map fun row =>
    if row.userID = update.userID ∧ row.profileUpdatedAt ≤ update.profileUpdatedAt then
      change { row with
        username := update.username, name := update.name, profileUpdatedAt := update.profileUpdatedAt }
    else row

def updateGuildMemberProfilesByUser (update : ProfileUpdate) (avatarAssetID : ℤ) :
    List GuildMemberProfile → List GuildMemberProfile :=
  updateProfiles update fun row => { row with avatarAssetID }

def updateGuildMemberProfilesByUserWithoutAvatar (update : ProfileUpdate) :
    List GuildMemberProfile → List GuildMemberProfile :=
  updateProfiles update fun row => row

/-- A positive identifier. -/
def validUserID (userID : Option ℤ) : Option ℤ := userID.filter fun userID => 0 < userID

/-- The avatar of an event, if it has a valid one. -/
def validAvatar (avatarAssetID : Option (Option ℤ)) : Option ℤ := avatarAssetID.join.filter fun assetID => 0 ≤ assetID

/-- Apply an event; one of another type, or without a valid user, is dropped. -/
def handleProfileRecord (rows : List GuildMemberProfile) (event : UserEvent) : List GuildMemberProfile :=
  if event.type ≠ User.eventTypeUserProfileUpdated then rows
  else (validUserID event.data.userID).elim rows fun userID =>
    let update : ProfileUpdate := ⟨userID, event.data.username, event.data.name, max event.data.updatedAt 0⟩
    (validAvatar event.data.avatarAssetID).elim (updateGuildMemberProfilesByUserWithoutAvatar update rows) fun assetID =>
      updateGuildMemberProfilesByUser update assetID rows

end Cordis.Guild
