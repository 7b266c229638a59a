import Cordis.Dispatcher.Record

/-! # Records that block a partition

A record that the dispatcher accepts and a Session node answers with `InvalidArgument` is retried
without end. The two decoders read the same data: the dispatcher takes an identifier as a number or
as a string, Session as a string only, and Session has two number fields of its own. So a record is
harmless if Session never decodes its data or the data has the types Session's fields have; the one
other case is a read marker with a guild route, which the guild message call does not take at all.
-/

namespace Cordis.Dispatcher

open Go (Json foldName parseInt)
open Session (DedupStore DispatchRequest DispatchRoute EventType RoutingPayload newDedupStore parseID)
open Session.DispatchRequest Session.RoutingPayload Go List Option

/-- What a plain string field takes. -/
def IsText : Json → Prop
  | .null | .string _ => True
  | _ => False

/-- What a plain integer field with the given range takes. -/
def IsInteger (least greatest : ℤ) : Json → Prop
  | .null => True
  | .number literal => ∃ value, parseInt literal = .ok value ∧ least ≤ value ∧ value ≤ greatest
  | _ => False

/-- The names of the identifiers Session reads. -/
def idNames : List String := ["id", "guild_id", "channel_id", "user_id", "owner_id", "applies_to_id"]

/-- The member has the type of the field of that name, if Session has one. -/
def Takes (member : String × Json) : Prop :=
  (∀ name ∈ idNames, foldName name = foldName member.1 → IsText member.2) ∧
  (foldName "applies_to" = foldName member.1 → IsInteger Go.minInt32 Go.maxInt32 member.2) ∧
  (foldName "access_revision" = foldName member.1 → IsInteger Go.minInt64 Go.maxInt64 member.2)

/-- Identifiers are strings, and the two numbers are integers that fit. -/
def WellTyped : Json → Prop
  | .null => True
  | .object members => ∀ member ∈ members, Takes member
  | _ => False

/-- The record is taken by every handler it may be routed to. -/
def Harmless (type : String) (routing : Routing) (data : Json) : Prop :=
  if type = "message.read.updated" then routing.guildID = 0
  else if type ∈ messageTypes then routing.userID = 0 ∨ WellTyped data
  else if type = "presence.updated" then (∀ id ∈ routing.guildIDs, id ≤ 0) ∨ WellTyped data
  else if type = "user.profile.updated" ∨ hasPrefix type "guild." = true then WellTyped data
  else True

/-! ## What Session decodes -/

theorem isSome_stringField {σ : Type*} (name : String) (set : String → σ → σ) (value : Json) (state : σ) :
    ((stringField name set).decode value state).isSome = true ↔ IsText value := by
  cases value <;> simp [stringField, IsText]

theorem isSome_intField {σ : Type*} (name : String) (least greatest : ℤ) (set : ℤ → σ → σ) (value : Json)
    (state : σ) :
    ((intField name least greatest set).decode value state).isSome = true ↔
      IsInteger least greatest value := by
  cases value with
  | number literal =>
    simp only [intField, IsInteger]
    cases parsed : parseInt literal with
    | error => simp
    | ok found =>
      by_cases fits : least ≤ found ∧ found ≤ greatest
      · simp [fits]
      · simp [fits]
  | _ => simp [intField, IsInteger]

theorem distinct_fields : (fields.map fun field => foldName field.name).Nodup := by
  show [foldName "id", foldName "guild_id", foldName "channel_id", foldName "user_id", foldName "owner_id",
    foldName "applies_to_id", foldName "applies_to", foldName "access_revision"].Nodup
  decide

theorem takes_iff (state : RoutingPayload) (member : String × Json) :
    (decodeMember fields state member).isSome = true ↔ Takes member := by
  rw [isSome_decodeMember distinct_fields]
  simp [fields, Takes, idNames, and_assoc, stringField_name, intField_name, isSome_stringField, isSome_intField]

/-- Session decodes exactly the data whose members have the types of its fields. -/
theorem isSome_decode (data : Json) : (decode data).isSome = true ↔ WellTyped data := by
  cases data with
  | object members => exact isSome_foldlM_iff takes_iff members {}
  | _ => simp [decode, decodeStruct, WellTyped]

/-! ## Both decoders -/

theorem distinct_ids : (Routing.fields.map fun field => foldName field.name).Nodup := by
  show [foldName "id", foldName "guild_id", foldName "channel_id", foldName "user_id", foldName "owner_id",
    foldName "guild_ids"].Nodup
  decide

theorem idField_name (name : String) (set : ℤ → Routing → Routing) : (idField name set).name = name := rfl

theorem keeps_idField {β : Type*} {part : Routing → β} {set : ℤ → Routing → Routing}
    (kept : ∀ id routing, part (set id routing) = part routing) (name : String) :
    (idField name set).Keeps part := by
  intro json routing next decoded
  obtain ⟨id, _, rfl⟩ := map_eq_some_iff.mp decoded
  exact kept id routing

theorem keeps_idsField {β : Type*} {part : Routing → β} {set : List ℤ → Routing → Routing}
    (kept : ∀ ids routing, part (set ids routing) = part routing) (name : String) :
    (idsField name set).Keeps part := by
  intro json routing next decoded
  cases json with
  | null =>
    cases decoded
    exact kept _ _
  | array items =>
    obtain ⟨ids, _, rfl⟩ := map_eq_some_iff.mp decoded
    exact kept ids routing
  | _ => cases decoded

/-- An identifier that both decoders read, each into one field. -/
structure SharedID where
  name : String
  part : Routing → ℤ
  text : RoutingPayload → String
  set : ℤ → Routing → Routing
  setText : String → RoutingPayload → RoutingPayload
  listed : idField name set ∈ Routing.fields
  listedText : Go.stringField name setText ∈ RoutingPayload.fields
  zero : part {} = 0
  part_set : ∀ id routing, part (set id routing) = id
  text_set : ∀ value payload, text (setText value payload) = value
  keeps : ∀ field ∈ Routing.fields, foldName field.name ≠ foldName name → field.Keeps part
  keepsText : ∀ field ∈ RoutingPayload.fields, foldName field.name ≠ foldName name → field.Keeps text

namespace SharedID

def channelID : SharedID where
  name := "channel_id"
  part := Routing.channelID
  text := RoutingPayload.channelID
  set channelID routing := { routing with channelID }
  setText channelID payload := { payload with channelID }
  listed := .tail _ (.tail _ (.head _))
  listedText := .tail _ (.tail _ (.head _))
  zero := rfl
  part_set _ _ := rfl
  text_set _ _ := rfl
  keeps := by simp [Routing.fields, idField_name, keeps_idField, keeps_idsField]
  keepsText := by simp [RoutingPayload.fields, Go.keeps_stringField, Go.keeps_intField]

def userID : SharedID where
  name := "user_id"
  part := Routing.userID
  text := RoutingPayload.userID
  set userID routing := { routing with userID }
  setText userID payload := { payload with userID }
  listed := .tail _ (.tail _ (.tail _ (.head _)))
  listedText := .tail _ (.tail _ (.tail _ (.head _)))
  zero := rfl
  part_set _ _ := rfl
  text_set _ _ := rfl
  keeps := by simp [Routing.fields, idField_name, keeps_idField, keeps_idsField]
  keepsText := by simp [RoutingPayload.fields, Go.keeps_stringField, Go.keeps_intField]

variable (shared : SharedID)

/-- What Session makes of the identifier is what the dispatcher routed by, unless that is zero. -/
def Agrees (routing : Routing) (payload : RoutingPayload) : Prop :=
  shared.part routing ≠ 0 → parseID (shared.text payload) = shared.part routing

theorem agrees_decodeMember {before after : Routing} {before' after' : RoutingPayload} {member : String × Json}
    (agree : shared.Agrees before before') (decoded : decodeMember Routing.fields before member = some after)
    (decoded' : decodeMember fields before' member = some after') :
    shared.Agrees after after' := by
  by_cases named : foldName shared.name = foldName member.1
  · rw [decodeMember_eq distinct_ids shared.listed named] at decoded
    rw [decodeMember_eq distinct_fields shared.listedText named] at decoded'
    obtain ⟨id, parsed, rfl⟩ := map_eq_some_iff.mp decoded
    obtain ⟨key, value⟩ := member
    cases value with
    | null =>
      -- `null` resets the dispatcher's identifier and leaves Session's as it is.
      cases parsed
      exact fun routed => absurd (shared.part_set _ _) routed
    | string value =>
      cases decoded'
      intro _
      rw [shared.part_set, shared.text_set]
      exact parsedInt_of_toOption parsed
    | _ => cases decoded'
  · have other : foldName member.1 ≠ foldName shared.name := Ne.symm named
    unfold Agrees
    rw [decodeMember_keeps shared.keeps other decoded, decodeMember_keeps shared.keepsText other decoded']
    exact agree

variable {data : Json} {routing : Routing} (decoded : Routing.decode data = some routing)

include decoded

theorem agrees_decode {payload : RoutingPayload} (decoded' : decode data = some payload) :
    shared.Agrees routing payload := by
  cases data with
  | null =>
    cases decoded
    cases decoded'
    exact fun routed => absurd shared.zero routed
  | object members =>
    exact foldlM_rel shared.agrees_decodeMember (fun routed => absurd shared.zero routed) decoded decoded'
  | _ => cases decoded

/-- If the dispatcher routes by an identifier, Session reads a positive one from any data it decodes. -/
theorem positive_iff (routed : 0 < shared.part routing) :
    (∃ payload, decode data = some payload ∧ 0 < parseID (shared.text payload)) ↔
      WellTyped data := by
  rw [← isSome_decode, isSome_iff_exists]
  constructor
  · rintro ⟨payload, decoded', _⟩
    exact ⟨payload, decoded'⟩
  · rintro ⟨payload, decoded'⟩
    have agree := shared.agrees_decode decoded decoded' routed.ne'
    exact ⟨payload, decoded', agree ▸ routed⟩

end SharedID

/-! ## What the calls take -/

section Requests

variable {request : DispatchRequest}

/-- A node that has just started has seen no event. -/
theorem isNew_newDedupStore (request : DispatchRequest) (now : ℤ) :
    request.isNew newDedupStore now = true := by
  unfold isNew DedupStore.checkAndAdd
  split
  · rfl
  · rfl

/-- The parts of a request that the dispatcher has checked. -/
structure Valid (request : DispatchRequest) : Prop where
  typed : Session.isBlank request.type = false
  keyed : 0 < request.idempotencyKey

theorem rejectGuild_iff (valid : Valid request) {guildID : ℤ} (positive : 0 < guildID)
    (routed : EventType.ofName request.type ≠ .presencePreferenceUpdated) :
    (∀ dedup now, request.rejectGuild dedup now guildID = none) ↔
      ∃ payload, decode request.payload = some payload ∧
        (EventType.ofName request.type = .profileUpdated → 0 < parseID payload.userID) := by
  simp only [rejectGuild, valid.typed, not_le.mpr valid.keyed, not_le.mpr positive, routed, if_false,
    Bool.false_eq_true]
  constructor
  · intro taken
    have first := taken newDedupStore 0
    rw [if_pos (isNew_newDedupStore request 0)] at first
    cases decoded : decode request.payload with
    | none => simp [decoded, invalidArgument] at first
    | some payload =>
      refine ⟨payload, rfl, fun profile => ?_⟩
      simpa [decoded, profile, invalidArgument] using first
  · rintro ⟨payload, decoded, named⟩ dedup now
    split
    · rw [decoded]
      exact if_neg fun profile => absurd (named profile.1) (not_lt.mpr profile.2)
    · rfl

theorem rejectGuildMessage_iff (valid : Valid request) {guildID channelID : ℤ} (positive : 0 < guildID)
    (positive' : 0 < channelID) :
    request.rejectGuildMessage guildID channelID = none ↔ (EventType.ofName request.type).isMessage = true := by
  simp [rejectGuildMessage, check_eq_none, valid.typed, valid.keyed, positive,
    positive']

theorem rejectUser_iff (valid : Valid request) {userID : ℤ} (positive : 0 < userID) :
    (∀ dedup now, request.rejectUser dedup now userID = none) ↔
      (EventType.ofName request.type = .profileUpdated → request.names RoutingPayload.userID = true) ∧
      ((EventType.ofName request.type).isMessage = true → request.names channelID = true) := by
  simp only [rejectUser, check_eq_none, valid.typed, not_le.mpr valid.keyed,
    not_le.mpr positive, Bool.false_eq_true, not_false_eq_true, true_and, not_and, Bool.not_eq_false]
  constructor
  · intro taken
    obtain ⟨profile, message⟩ := taken newDedupStore 0
    rw [if_pos (isNew_newDedupStore request 0), check_eq_none] at message
    exact ⟨profile, by simpa using message.1⟩
  · rintro ⟨profile, message⟩ dedup now
    refine ⟨profile, ?_⟩
    split
    · exact check_eq_none.mpr ⟨by simpa using message, rfl⟩
    · rfl

end Requests

/-! ## Event types -/

/-- The names of the types that the dispatch calls tell apart. -/
theorem ofName_spec (type : String) :
    (EventType.ofName type = .profileUpdated ↔ type = "user.profile.updated") ∧
      (EventType.ofName type = .presencePreferenceUpdated ↔ type = "presence.preference.updated") ∧
      ((EventType.ofName type).isMessage = true ↔ type ∈ messageTypes ∧ type ≠ "message.read.updated") := by
  unfold EventType.ofName messageTypes
  split <;> simp_all [EventType.isMessage]

/-- A text does not start in two ways that differ. -/
theorem not_hasPrefix {text first second : String} (starts : hasPrefix text first = true)
    (differ : ¬ first.toList <+: second.toList) (differ' : ¬ second.toList <+: first.toList) :
    hasPrefix text second = false := by
  rw [Bool.eq_false_iff]
  intro also
  rcases prefix_or_prefix_of_prefix (List.isPrefixOf_iff_prefix.mp starts)
    (List.isPrefixOf_iff_prefix.mp also) with one | other
  · exact differ one
  · exact differ' other

/-! ## Records -/

/-- No call of the record is answered with `InvalidArgument`, whatever the node has seen before. -/
def Taken (envelope : Envelope) (data : Json) (key : ℤ) (audience : Audience) : Prop :=
  ∀ relations dedup now, ∀ route ∈ audience.routes relations,
    (envelope.request data key route).reject dedup now = none

section Calls

variable {envelope : Envelope} {data : Json} {key : ℤ} {routing : Routing}

theorem taken_of_single {audience : Audience} {route : DispatchRoute}
    (single : ∀ relations, audience.routes relations = [route]) :
    Taken envelope data key audience ↔
      ∀ dedup now, (envelope.request data key route).reject dedup now = none := by
  simp only [Taken, single, mem_singleton, forall_eq]
  exact ⟨fun taken => taken {}, fun taken _ => taken⟩

variable {audience : Audience}

theorem routeUser_eq_ok {message : String} {build : ℤ → Audience}
    (routed : routeUser message build routing = .ok audience) :
    0 < routing.userID ∧ audience = build routing.userID := by
  unfold routeUser at routed
  split at routed
  · cases routed
  · next named =>
    cases routed
    exact ⟨not_le.mp named, rfl⟩

theorem mem_uniquePositiveIDs {id : ℤ} {values : List ℤ} : id ∈ uniquePositiveIDs values ↔ id ∈ values ∧ 0 < id := by
  simp [uniquePositiveIDs, mem_eraseDups]

/-- The types of relationship and direct message channel events are no others' types. -/
theorem personal_type {type : String} (personal : (hasPrefix type "relationship." || hasPrefix type "dm.") = true) :
    type ≠ "user.profile.updated" ∧ hasPrefix type "guild." = false := by
  rcases Bool.or_eq_true_iff.mp personal with relationship | dm
  · refine ⟨?_, not_hasPrefix relationship (by decide) (by decide)⟩
    rintro rfl
    exact absurd relationship (by decide)
  · refine ⟨?_, not_hasPrefix dm (by decide) (by decide)⟩
    rintro rfl
    exact absurd dm (by decide)

variable (typed : Session.isBlank envelope.type = false) (keyed : 0 < key)

include typed keyed

/-- A message event of a guild needs no data at all, but a read marker is not taken as one. -/
theorem guildMessage_taken_iff (message : envelope.type ∈ messageTypes)
    (guild : 0 < routing.guildID) (channel : 0 < routing.channelID) (alone : routing.userID = 0) :
    Taken envelope data key (.guildMessage routing.guildID routing.channelID) ↔
      Harmless envelope.type routing data := by
  have valid : Valid (envelope.request data key (.guildMessage routing.guildID routing.channelID)) :=
    ⟨typed, keyed⟩
  have taken : Taken envelope data key (.guildMessage routing.guildID routing.channelID) ↔
      envelope.type ≠ "message.read.updated" := by
    refine (taken_of_single fun _ => rfl).trans ?_
    have typed_iff := (ofName_spec envelope.type).2.2.trans (and_iff_right message)
    exact ⟨fun taken => typed_iff.mp ((rejectGuildMessage_iff valid guild channel).mp (taken newDedupStore 0)),
      fun other _ _ => (rejectGuildMessage_iff valid guild channel).mpr (typed_iff.mpr other)⟩
  rw [taken, Harmless]
  split
  · next marker => simp [marker, guild.ne']
  · next other => simp [other, alone]

variable (decoded : Routing.decode data = some routing)

include decoded

theorem guild_takes_iff {guildID : ℤ} (positive : 0 < guildID)
    (routed : envelope.type ≠ "presence.preference.updated")
    (named : envelope.type = "user.profile.updated" → 0 < routing.userID) :
    (∀ dedup now, (envelope.request data key (.guild guildID)).reject dedup now = none) ↔ WellTyped data := by
  have valid : Valid (envelope.request data key (.guild guildID)) := ⟨typed, keyed⟩
  refine (rejectGuild_iff valid positive (mt (ofName_spec _).2.1.mp routed)).trans ?_
  rw [← isSome_decode, isSome_iff_exists]
  constructor
  · rintro ⟨payload, read, _⟩
    exact ⟨payload, read⟩
  · rintro ⟨payload, read⟩
    refine ⟨payload, read, fun profile => ?_⟩
    have positiveID := named ((ofName_spec _).1.mp profile)
    have agree := SharedID.userID.agrees_decode decoded read positiveID.ne'
    exact agree ▸ positiveID

theorem user_takes_iff {userID : ℤ} (positive : 0 < userID)
    (named : envelope.type = "user.profile.updated" → 0 < routing.userID)
    (channel : envelope.type ∈ messageTypes → 0 < routing.channelID) :
    (∀ dedup now, (envelope.request data key (.user userID)).reject dedup now = none) ↔
      (envelope.type = "user.profile.updated" → WellTyped data) ∧
      (envelope.type ∈ messageTypes → envelope.type ≠ "message.read.updated" → WellTyped data) := by
  have valid : Valid (envelope.request data key (.user userID)) := ⟨typed, keyed⟩
  refine (rejectUser_iff valid positive).trans (and_congr ?_ ?_)
  · refine imp_congr_ctx (ofName_spec _).1 fun profile => ?_
    exact (names_iff _).trans (SharedID.userID.positive_iff decoded (named profile))
  · rw [← and_imp]
    refine imp_congr_ctx (ofName_spec _).2.2 fun message => ?_
    exact (names_iff _).trans (SharedID.channelID.positive_iff decoded (channel message.1))

/-- A message event of a user is routed by its data. -/
theorem userMessage_taken_iff (message : envelope.type ∈ messageTypes) (user : 0 < routing.userID) (channel : 0 < routing.channelID)
    (alone : routing.guildID = 0) :
    Taken envelope data key (.user routing.userID) ↔ Harmless envelope.type routing data := by
  have plain : envelope.type ≠ "user.profile.updated" := fun profile => by simp [profile, messageTypes] at message
  rw [taken_of_single fun _ => rfl,
    user_takes_iff typed keyed decoded user (fun profile => absurd profile plain) fun _ => channel, Harmless]
  split
  · next marker => simp [marker, alone]
  · next other => simp [plain, other, message, user.ne']

theorem message_taken_iff (message : envelope.type ∈ messageTypes) (routed : routeMessage routing = .ok audience) :
    Taken envelope data key audience ↔ Harmless envelope.type routing data := by
  unfold routeMessage at routed
  split at routed
  · cases routed
  · next channel =>
    split at routed
    · next aggregate =>
      cases routed
      exact guildMessage_taken_iff typed keyed message aggregate.1 (not_le.mp channel) aggregate.2
    · split at routed
      · next aggregate =>
        cases routed
        exact userMessage_taken_iff typed keyed decoded message aggregate.1 (not_le.mp channel) aggregate.2
      · split at routed <;> cases routed

/-- The data of a user event that is neither a message nor a profile is never decoded. -/
theorem user_taken (plain : envelope.type ∉ messageTypes)
    (other : envelope.type ≠ "user.profile.updated") {userID : ℤ} (user : 0 < userID) :
    ∀ dedup now, (envelope.request data key (.user userID)).reject dedup now = none := by
  rw [user_takes_iff typed keyed decoded user (fun profile => absurd profile other)
    fun message => absurd message plain]
  exact ⟨fun profile => absurd profile other, fun message => absurd message plain⟩

theorem presence_taken_iff (presence : envelope.type = "presence.updated") (user : 0 < routing.userID) :
    Taken envelope data key (.presence routing.userID routing.guildIDs) ↔
      (∀ id ∈ routing.guildIDs, id ≤ 0) ∨ WellTyped data := by
  have guilds : ∀ {guildID : ℤ}, 0 < guildID →
      ((∀ dedup now, (envelope.request data key (.guild guildID)).reject dedup now = none) ↔ WellTyped data) :=
    fun positive => guild_takes_iff typed keyed decoded positive (by simp [presence]) (by simp [presence])
  constructor
  · intro taken
    by_cases routed : ∃ id ∈ routing.guildIDs, 0 < id
    · obtain ⟨id, listed, positive⟩ := routed
      refine .inr ((guilds positive).mp fun dedup now => taken {} dedup now _ ?_)
      exact mem_append_left _ (mem_map_of_mem (mem_uniquePositiveIDs.mpr ⟨listed, positive⟩))
    · exact .inl fun id listed => not_lt.mp fun positive => routed ⟨id, listed, positive⟩
  · intro harmless relations dedup now route listed
    rcases mem_append.mp listed with guild | person
    · obtain ⟨id, member, rfl⟩ := mem_map.mp guild
      obtain ⟨listed, positive⟩ := mem_uniquePositiveIDs.mp member
      rcases harmless with none | wellTyped
      · exact absurd positive (not_lt.mpr (none id listed))
      · exact (guilds positive).mpr wellTyped dedup now
    · obtain ⟨id, member, rfl⟩ := mem_map.mp person
      have positive : 0 < id := by
        rcases mem_append.mp member with friend | self
        · simp only [friendsOf, mem_eraseDups, mem_filter, decide_eq_true_eq] at friend
          exact friend.2.1
        · exact (mem_singleton.mp self) ▸ user
      exact user_taken typed keyed decoded (by simp [presence, messageTypes]) (by simp [presence]) positive dedup now

theorem profile_taken_iff (profile : envelope.type = "user.profile.updated") (user : 0 < routing.userID) :
    Taken envelope data key (.profile routing.userID) ↔ WellTyped data := by
  have users : ∀ {userID : ℤ}, 0 < userID →
      ((∀ dedup now, (envelope.request data key (.user userID)).reject dedup now = none) ↔ WellTyped data) := by
    intro userID positive
    rw [user_takes_iff typed keyed decoded positive (fun _ => user) (by simp [profile, messageTypes])]
    simp [profile, messageTypes]
  constructor
  · intro taken
    refine (users user).mp fun dedup now => taken {} dedup now _ ?_
    refine mem_append_left _ (mem_map_of_mem (mem_uniquePositiveIDs.mpr ⟨?_, user⟩))
    exact mem_append_right _ (mem_singleton_self _)
  · intro wellTyped relations dedup now route listed
    rcases mem_append.mp listed with person | guild
    · obtain ⟨id, member, rfl⟩ := mem_map.mp person
      exact (users (mem_uniquePositiveIDs.mp member).2).mpr wellTyped dedup now
    · obtain ⟨id, member, rfl⟩ := mem_map.mp guild
      exact (guild_takes_iff typed keyed decoded (mem_uniquePositiveIDs.mp member).2 (by simp [profile])
        fun _ => user).mpr wellTyped dedup now

theorem guild_taken_iff (other : envelope.type ≠ "presence.preference.updated") (plain : envelope.type ≠ "user.profile.updated")
    (routed : routeGuild envelope.type routing = .ok audience) :
    Taken envelope data key audience ↔ WellTyped data := by
  unfold routeGuild at routed
  split at routed
  · cases routed
  · next guild =>
    split at routed
    · cases routed
    · split at routed
      · cases routed
      · cases routed
        rw [taken_of_single fun _ => rfl]
        exact guild_takes_iff typed keyed decoded (not_le.mp guild) other fun profile => absurd profile plain

theorem personal_taken_iff (plain : envelope.type ∉ messageTypes) (notProfile : envelope.type ≠ "user.profile.updated")
    (notGuild : hasPrefix envelope.type "guild." = false) (user : 0 < routing.userID) :
    Taken envelope data key (.user routing.userID) ↔
      if envelope.type = "user.profile.updated" ∨ hasPrefix envelope.type "guild." = true then WellTyped data
      else True := by
  rw [if_neg (by simp [notProfile, notGuild]), taken_of_single fun _ => rfl]
  exact iff_true_intro (user_taken typed keyed decoded plain notProfile user)

theorem taken_iff_of_route (routed : route envelope.type routing = .ok audience) :
    Taken envelope data key audience ↔ Harmless envelope.type routing data := by
  unfold route at routed
  split at routed
  · next message => exact message_taken_iff typed keyed decoded message routed
  · next plain =>
    have notMarker : envelope.type ≠ "message.read.updated" := fun marker => plain (by simp [marker, messageTypes])
    rw [Harmless, if_neg notMarker, if_neg plain]
    split at routed
    · next preference =>
      obtain ⟨user, rfl⟩ := routeUser_eq_ok routed
      have notGuild : hasPrefix envelope.type "guild." = false := by
        rw [preference]
        decide
      have absent : envelope.type ≠ "presence.updated" := by simp [preference]
      rw [if_neg absent]
      exact personal_taken_iff typed keyed decoded plain (by simp [preference]) notGuild user
    · next other =>
      split at routed
      · next presence =>
        obtain ⟨user, rfl⟩ := routeUser_eq_ok routed
        rw [if_pos presence]
        exact presence_taken_iff typed keyed decoded presence user
      · next absent =>
        rw [if_neg absent]
        split at routed
        · cases routed
        · split at routed
          · next personal =>
            obtain ⟨user, rfl⟩ := routeUser_eq_ok routed
            obtain ⟨notProfile, notGuild⟩ := personal_type personal
            exact personal_taken_iff typed keyed decoded plain notProfile notGuild user
          · split at routed
            · next profile =>
              obtain ⟨user, rfl⟩ := routeUser_eq_ok routed
              rw [if_pos (.inl profile)]
              exact profile_taken_iff typed keyed decoded profile user
            · next notProfile =>
              split at routed
              · cases routed
              · next guild =>
                rw [if_pos (.inr (by simpa using guild))]
                exact guild_taken_iff typed keyed decoded other notProfile routed

end Calls

theorem parseIdempotencyKey_pos {value : String} {key : ℤ} (parsed : parseIdempotencyKey value = .ok key) :
    0 < key := by
  unfold parseIdempotencyKey at parsed
  split at parsed
  · cases parsed
  · split at parsed
    · cases parsed
    · next canonical =>
      cases parsed
      exact not_le.mp fun nonpositive => canonical (.inl nonpositive)

/-- What the checks of `dispatchRecord` leave. -/
theorem dispatchRecord_eq_ok {value : Json} {envelope : Envelope} {data : Json} {routing : Routing}
    {audience : Audience} {key : ℤ} (opened : Envelope.decode value = some envelope)
    (carried : envelope.data = some data) (decoded : Routing.decode data = some routing)
    (passed : dispatchRecord (some value) = .ok (audience, key)) :
    Session.isBlank envelope.type = false ∧ 0 < key ∧ route envelope.type routing = .ok audience := by
  unfold dispatchRecord at passed
  simp only [bind_some, opened, carried, decoded] at passed
  split at passed
  · cases passed
  · next typed =>
    cases parsed : parseIdempotencyKey envelope.idempotencyKey with
    | error => simp [parsed, bind, Except.bind] at passed
    | ok found =>
      cases routed : route envelope.type routing with
      | error => simp [parsed, routed, bind, Except.bind] at passed
      | ok built =>
        simp only [parsed, routed, bind, Except.bind, pure, Except.pure, Except.ok.injEq, Prod.mk.injEq] at passed
        obtain ⟨rfl, rfl⟩ := passed
        exact ⟨Bool.eq_false_iff.mpr typed, parseIdempotencyKey_pos parsed, rfl⟩

/-- A record that passes the dispatcher's checks is taken by every node it is sent to, whatever the
node has seen, exactly if it is harmless. -/
theorem taken_iff_harmless {value : Json} {envelope : Envelope} {data : Json} {routing : Routing}
    {audience : Audience} {key : ℤ} (opened : Envelope.decode value = some envelope)
    (carried : envelope.data = some data) (decoded : Routing.decode data = some routing)
    (passed : dispatchRecord (some value) = .ok (audience, key)) :
    Taken envelope data key audience ↔ Harmless envelope.type routing data := by
  obtain ⟨typed, keyed, routed⟩ := dispatchRecord_eq_ok opened carried decoded passed
  exact taken_iff_of_route typed keyed decoded routed

/-- An event whose data names a channel and a guild, the guild as given. -/
def exampleData (guildID : Json) : Json := .object [("channel_id", .string "3"), ("guild_id", guildID)]

def exampleRecord (type : String) (guildID : Json) : Json :=
  .object [("t", .string type), ("d", exampleData guildID), ("idempotency_key", .string "7")]

def exampleEnvelope (type : String) (guildID : Json) : Envelope where
  type
  data := some (exampleData guildID)
  idempotencyKey := "7"

/-- A guild event that names its guild by a string is taken. -/
theorem string_id_taken :
    Taken (exampleEnvelope "guild.channel.updated" (.string "5")) (exampleData (.string "5")) 7 (.guild 5) := by
  have wellTyped : WellTyped (exampleData (.string "5")) := (isSome_decode _).mp rfl
  refine (@taken_iff_harmless (exampleRecord "guild.channel.updated" (.string "5")) _ _
    { channelID := 3, guildID := 5 } _ _ rfl rfl rfl rfl).mpr ?_
  simp [Harmless, messageTypes, wellTyped]

/-- A guild event that names its guild by a number passes the dispatcher's checks and is rejected, and
so is a read marker that names a guild. -/
theorem number_id_rejected :
    dispatchRecord (some (exampleRecord "guild.channel.updated" (.number "5"))) = .ok (.guild 5, 7) ∧
    ((exampleEnvelope "guild.channel.updated" (.number "5")).request (exampleData (.number "5")) 7
      (.guild 5)).reject newDedupStore 0 = some ⟨.invalidArgument, "event routing payload is invalid"⟩ ∧
    dispatchRecord (some (exampleRecord "message.read.updated" (.string "5"))) = .ok (.guildMessage 5 3, 7) ∧
    ((exampleEnvelope "message.read.updated" (.string "5")).request (exampleData (.string "5")) 7
      (.guildMessage 5 3)).reject newDedupStore 0 =
        some ⟨.invalidArgument, "guild message event type is invalid"⟩ :=
  ⟨rfl, rfl, rfl, rfl⟩

end Cordis.Dispatcher
