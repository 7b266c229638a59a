import Cordis.Go.Json
import Cordis.Session.Dispatch

/-! # What the dispatch calls require of a request

Before a dispatch call touches anything it checks its request, and the calls that route by the payload
decode it. Session's `eventRouting` has plain fields: identifiers are strings, `applies_to` and
`access_revision` are numbers. `reject` is the status a call answers with instead of accepting the
event; every such status is `InvalidArgument`.
-/

namespace Cordis.Session

open Go (Json StructField stringField intField decodeStruct parsedInt)

/-- `eventRouting` as it is decoded, identifiers still strings. -/
structure RoutingPayload where
  id : String := ""
  guildID : String := ""
  channelID : String := ""
  userID : String := ""
  ownerID : String := ""
  appliesToID : String := ""
  appliesTo : ℤ := 0
  accessRevision : ℤ := 0
deriving DecidableEq, Repr

namespace RoutingPayload

def fields : List (StructField RoutingPayload) :=
  [stringField "id" fun id routing => { routing with id },
    stringField "guild_id" fun guildID routing => { routing with guildID },
    stringField "channel_id" fun channelID routing => { routing with channelID },
    stringField "user_id" fun userID routing => { routing with userID },
    stringField "owner_id" fun ownerID routing => { routing with ownerID },
    stringField "applies_to_id" fun appliesToID routing => { routing with appliesToID },
    intField "applies_to" Go.minInt32 Go.maxInt32 fun appliesTo routing => { routing with appliesTo },
    intField "access_revision" Go.minInt64 Go.maxInt64 fun accessRevision routing => { routing with accessRevision }]

def decode (payload : Json) : Option RoutingPayload := decodeStruct fields {} payload

end RoutingPayload

def parseID (value : String) : ℤ := parsedInt value

/-- The ids of the payload, parsed. -/
def RoutingPayload.routing (payload : RoutingPayload) : EventRouting where
  id := parseID payload.id
  channelID := parseID payload.channelID
  userID := parseID payload.userID
  ownerID := parseID payload.ownerID
  appliesToID := parseID payload.appliesToID
  appliesTo := payload.appliesTo
  accessRevision := payload.accessRevision

/-- The characters `strings.TrimSpace` trims. -/
def isSpace (char : Char) : Bool :=
  char.toNat ∈ [0x09, 0x0a, 0x0b, 0x0c, 0x0d, 0x20, 0x85, 0xa0, 0x1680, 0x2000, 0x2001, 0x2002, 0x2003, 0x2004,
    0x2005, 0x2006, 0x2007, 0x2008, 0x2009, 0x200a, 0x2028, 0x2029, 0x202f, 0x205f, 0x3000]

/-- Nothing is left of the text when its space is trimmed. -/
def isBlank (text : String) : Bool := text.toList.all isSpace

/-- A request of one of the three dispatch calls. The payload is valid JSON. -/
structure DispatchRequest where
  route : DispatchRoute
  type : String
  payload : Json
  idempotencyKey : ℤ
  streamSequence : ℤ := 0

namespace DispatchRequest

variable (request : DispatchRequest)

def invalidArgument (message : String) : Option Status := some ⟨.invalidArgument, message⟩

variable (dedup : DedupStore) (now guildID : ℤ)

/-- The event passes the deduplication check of the call. -/
def isNew : Bool :=
  (dedup.checkAndAdd now request.route.kind (Int64.ofInt request.route.id)
    (Int64.ofInt request.idempotencyKey) request.type dedupTTL).2

def rejectGuild : Option Status :=
  if guildID ≤ 0 then invalidArgument "guild id is required"
  else if isBlank request.type then invalidArgument "event type is required"
  else if request.idempotencyKey ≤ 0 then invalidArgument "idempotency key is required"
  else if EventType.ofName request.type = .presencePreferenceUpdated then
    invalidArgument "presence preference event must use a user route"
  else if request.isNew dedup now then
    match RoutingPayload.decode request.payload with
    | none => invalidArgument "event routing payload is invalid"
    | some payload =>
      if EventType.ofName request.type = .profileUpdated ∧ parseID payload.userID ≤ 0 then
        invalidArgument "profile user id is required"
      else none
  else none

def rejectGuildMessage (channelID : ℤ) : Option Status :=
  if guildID ≤ 0 then invalidArgument "guild id is required"
  else if channelID ≤ 0 then invalidArgument "channel id is required"
  else if isBlank request.type then invalidArgument "event type is required"
  else if (EventType.ofName request.type).isMessage = false then
    invalidArgument "guild message event type is invalid"
  else if request.idempotencyKey ≤ 0 then invalidArgument "idempotency key is required"
  else none

/-- The payload names an id that is positive. -/
def names (field : RoutingPayload → String) : Bool :=
  match RoutingPayload.decode request.payload with
  | none => false
  | some payload => decide (0 < parseID (field payload))

def rejectUser (userID : ℤ) : Option Status :=
  if userID ≤ 0 then invalidArgument "user id is required"
  else if isBlank request.type then invalidArgument "event type is required"
  else if request.idempotencyKey ≤ 0 then invalidArgument "idempotency key is required"
  else if EventType.ofName request.type = .profileUpdated ∧ request.names RoutingPayload.userID = false then
    invalidArgument "profile user id is required"
  else if request.isNew dedup now then
    if (EventType.ofName request.type).isMessage = true ∧ request.names RoutingPayload.channelID = false then
      invalidArgument "message event channel id is required"
    else none
  else none

/-- The status the call answers with instead of accepting the event. -/
def reject : Option Status :=
  match request.route with
  | .guild guildID => request.rejectGuild dedup now guildID
  | .guildMessage guildID channelID => request.rejectGuildMessage guildID channelID
  | .user userID => request.rejectUser dedup now userID

/-- The event of the request, as the stages of the call read it. -/
def event (payload : Bytes) : EventEnvelope where
  type := request.type
  payload
  routing := (RoutingPayload.decode request.payload).map RoutingPayload.routing
  idempotencyKey := request.idempotencyKey
  streamSequence := request.streamSequence

variable {request : DispatchRequest}

theorem names_iff (field : RoutingPayload → String) :
    request.names field = true ↔
      ∃ payload, RoutingPayload.decode request.payload = some payload ∧ 0 < parseID (field payload) := by
  unfold names
  cases RoutingPayload.decode request.payload <;> simp

/-- A check followed by others is passed if the check is and they are. -/
theorem check_eq_none {failed : Prop} [Decidable failed] {message : String} {rest : Option Status} :
    (if failed then invalidArgument message else rest) = none ↔ ¬ failed ∧ rest = none := by
  split
  · next bad => simp [bad, invalidArgument]
  · next good => simp [good]

/-- A call that takes its request has what the dispatch machine asks of its event. -/
theorem admits_event {dedup : DedupStore} {now : ℤ}
    (taken : request.reject dedup now = none) (payload : Bytes) :
    request.route.Admits (request.event payload) := by
  unfold reject at taken
  split at taken
  · next guildID route =>
    simp only [rejectGuild, check_eq_none] at taken
    obtain ⟨guild, _, keyed, routed, _⟩ := taken
    rw [route]
    exact ⟨not_le.mp guild, not_le.mp keyed, routed⟩
  · next guildID channelID route =>
    simp only [rejectGuildMessage, check_eq_none] at taken
    obtain ⟨guild, channel, _, typed, keyed, _⟩ := taken
    rw [route]
    exact ⟨not_le.mp guild, not_le.mp keyed, not_le.mp channel, by simpa [event] using typed⟩
  · next userID route =>
    simp only [rejectUser, check_eq_none] at taken
    obtain ⟨user, _, keyed, named, _⟩ := taken
    rw [route]
    refine ⟨not_le.mp user, not_le.mp keyed, fun profile => ?_⟩
    have read : request.names RoutingPayload.userID = true := by simpa using fun unnamed => named ⟨profile, unnamed⟩
    obtain ⟨found, decoded, positive⟩ := (names_iff _).mp read
    exact ⟨found.routing, by simp [event, decoded], positive⟩

end DispatchRequest

end Cordis.Session
