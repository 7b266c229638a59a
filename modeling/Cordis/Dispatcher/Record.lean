import Cordis.Session.Routing

/-! # The records the dispatcher forwards

A record of the event topics is an envelope whose data routes it. The dispatcher decodes both, and
what it can not route it drops for good: `dispatchRecord` fails with the reason. Everything else
becomes requests to Session nodes, and a request that fails is retried until it succeeds.

The dispatcher's identifiers take a JSON number or a string; `null` resets them to zero.
-/

namespace Cordis.Dispatcher

open Go (Json StructField stringField intField rawField decodeStruct parseInt)
open Session (DispatchRequest DispatchRoute isBlank)

/-- `eventEnvelope`; data that is missing is no valid JSON. -/
structure Envelope where
  type : String := ""
  data : Option Json := none
  idempotencyKey : String := ""
  streamSequence : ℤ := 0
  deliveryIndex : ℤ := 0

namespace Envelope

def fields : List (StructField Envelope) :=
  [stringField "t" fun type envelope => { envelope with type },
    rawField "d" fun data envelope => { envelope with data := some data },
    stringField "idempotency_key" fun idempotencyKey envelope => { envelope with idempotencyKey },
    intField "stream_sequence" Go.minInt64 Go.maxInt64 fun streamSequence envelope =>
      { envelope with streamSequence },
    intField "delivery_index" Go.minInt32 Go.maxInt32 fun deliveryIndex envelope =>
      { envelope with deliveryIndex }]

def decode (value : Json) : Option Envelope := decodeStruct fields {} value

end Envelope

/-- `eventID.UnmarshalJSON`. -/
def decodeID : Json → Option ℤ
  | .null => some 0
  | .string text => (parseInt text).toOption
  | .number literal => (parseInt literal).toOption
  | _ => none

/-- `eventRouting`. -/
structure Routing where
  id : ℤ := 0
  guildID : ℤ := 0
  channelID : ℤ := 0
  userID : ℤ := 0
  ownerID : ℤ := 0
  guildIDs : List ℤ := []
deriving DecidableEq, Repr

/-- A field of type `eventID`. -/
def idField (name : String) (set : ℤ → Routing → Routing) : StructField Routing where
  name
  decode value routing := (decodeID value).map fun id => set id routing

/-- A field of type `[]eventID`. -/
def idsField (name : String) (set : List ℤ → Routing → Routing) : StructField Routing where
  name
  decode
    | .null, routing => some (set [] routing)
    | .array items, routing => (items.mapM decodeID).map fun ids => set ids routing
    | _, _ => none

namespace Routing

def fields : List (StructField Routing) :=
  [idField "id" fun id routing => { routing with id },
    idField "guild_id" fun guildID routing => { routing with guildID },
    idField "channel_id" fun channelID routing => { routing with channelID },
    idField "user_id" fun userID routing => { routing with userID },
    idField "owner_id" fun ownerID routing => { routing with ownerID },
    idsField "guild_ids" fun guildIDs routing => { routing with guildIDs }]

def decode (data : Json) : Option Routing := decodeStruct fields {} data

end Routing

def parseIdempotencyKey (value : String) : Except String ℤ :=
  match parseInt value with
  | .error _ => .error "invalid idempotency key"
  | .ok key => if key ≤ 0 ∨ toString key ≠ value then .error "invalid idempotency key" else .ok key

def hasPrefix (text start : String) : Bool := start.toList.isPrefixOf text.toList

/-- Whom a record goes to. -/
inductive Audience where
  | guildMessage (guildID channelID : ℤ)
  | user (userID : ℤ)
  | presence (userID : ℤ) (guildIDs : List ℤ)
  | profile (userID : ℤ)
  | guild (guildID : ℤ)
deriving DecidableEq, Repr

def messageTypes : List String := ["message.created", "message.updated", "message.deleted", "message.read.updated"]

variable (type : String) (routing : Routing)

/-- The audience of a message event. -/
def routeMessage : Except String Audience :=
  if routing.channelID ≤ 0 then .error "message event channel id is invalid"
  else if 0 < routing.guildID ∧ routing.userID = 0 then .ok (.guildMessage routing.guildID routing.channelID)
  else if 0 < routing.userID ∧ routing.guildID = 0 then .ok (.user routing.userID)
  else if routing.guildID = 0 ∧ routing.userID = 0 then .error "message event aggregate route is missing"
  else .error "message event aggregate route is invalid"

/-- The guild of a guild event; events of the guild itself may name it by its id. -/
def guildOf : ℤ :=
  if routing.guildID = 0 ∧ (type = "guild.created" ∨ type = "guild.updated" ∨ type = "guild.deleted") then routing.id
  else routing.guildID

def routeGuild : Except String Audience :=
  if guildOf type routing ≤ 0 then .error "guild event guild id is invalid"
  else if type = "guild.created" ∧ routing.ownerID ≤ 0 then .error "guild created owner id is invalid"
  else if type = "guild.member.joined" ∧ routing.userID ≤ 0 then
    .error "guild member joined user id is invalid"
  else .ok (.guild (guildOf type routing))

/-- The user of a user-routed event. -/
def routeUser (message : String) (audience : ℤ → Audience) (routing : Routing) : Except String Audience :=
  if routing.userID ≤ 0 then .error message else .ok (audience routing.userID)

def route : Except String Audience :=
  if type ∈ messageTypes then routeMessage routing
  else if type = "presence.preference.updated" then
    routeUser "presence preference event user id is invalid" .user routing
  else if type = "presence.updated" then
    routeUser "presence event user id is invalid" (.presence · routing.guildIDs) routing
  else if hasPrefix type "presence." then .error "unsupported presence event type"
  else if hasPrefix type "relationship." || hasPrefix type "dm." then
    routeUser "user-routed event user id is invalid" .user routing
  else if type = "user.profile.updated" then routeUser "profile event user id is invalid" .profile routing
  else if hasPrefix type "guild." = false then .error "unsupported event type"
  else routeGuild type routing

/-- `dispatchRecord` up to the calls it makes, from what the parser makes of the record's value: whom
the event goes to and its idempotency key, or why the record is dropped. -/
def dispatchRecord (value : Option Json) : Except String (Audience × ℤ) := do
  let some envelope := value.bind Envelope.decode | .error "record is not decoded"
  if isBlank envelope.type then .error "invalid event envelope"
  let some data := envelope.data | .error "invalid event envelope"
  let some routing := Routing.decode data | .error "routing is not decoded"
  let key ← parseIdempotencyKey envelope.idempotencyKey
  let audience ← route envelope.type routing
  return (audience, key)

/-- What the other services answer while an event is fanned out. -/
structure Relations where
  friends : ℤ → List ℤ := fun _ => []
  guilds : ℤ → List ℤ := fun _ => []
  relationships : ℤ → List ℤ := fun _ => []
  dmRecipients : ℤ → List ℤ := fun _ => []

def uniquePositiveIDs (values : List ℤ) : List ℤ := (values.filter fun id => decide (0 < id)).eraseDups

/-- The friends a presence event goes to, without the user. -/
def friendsOf (friends : List ℤ) (userID : ℤ) : List ℤ :=
  (friends.filter fun id => decide (0 < id ∧ id ≠ userID)).eraseDups

/-- The routes an event is sent along; every node of a route gets the same request. -/
def Audience.routes (relations : Relations) : Audience → List DispatchRoute
  | .guildMessage guildID channelID => [.guildMessage guildID channelID]
  | .user userID => [.user userID]
  | .guild guildID => [.guild guildID]
  | .presence userID guildIDs =>
      (uniquePositiveIDs guildIDs).map .guild ++ (friendsOf (relations.friends userID) userID ++ [userID]).map .user
  | .profile userID =>
      (uniquePositiveIDs (relations.relationships userID ++ relations.dmRecipients userID ++ [userID])).map .user ++
        (uniquePositiveIDs (relations.guilds userID)).map .guild

/-- The request to a node of a route. -/
def Envelope.request (envelope : Envelope) (data : Json) (key : ℤ) (route : DispatchRoute) : DispatchRequest where
  route
  type := envelope.type
  payload := data
  idempotencyKey := key
  streamSequence := envelope.streamSequence

end Cordis.Dispatcher
