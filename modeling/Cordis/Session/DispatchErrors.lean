import Cordis.Session.DedupRefinement
import Cordis.Session.Routing

/-! # What a failed dispatch call leaves in the stores

A dispatch call adds its event to the deduplication store before it has made all its checks. A call for a
guild takes the event out again when a later check fails. A call for a user does not: a message event whose
payload names no channel is refused and stays in the store, so a retry with the right payload is answered as
a repetition.

The calls are followed up to the delivery of the event, which has no error. What the stores show is how they
answer from now on.
-/

namespace Cordis.Session

open DedupStore DispatchRequest Function

structure DispatchStores where
  dedup : DedupStore
  watermarks : WatermarkStore

/-- A request as it arrives: its payload may be no JSON, and a request without an event has no type. The key
is a signed 64-bit number. -/
structure ReceivedRequest extends DispatchRequest where
  json : Bool := true
  keyFits : idempotencyKey ≤ Go.maxInt64

namespace ReceivedRequest

section Calls

variable (request : ReceivedRequest) (stores : DispatchStores) (now acceptedAt : ℤ)

def validateEvent : Option Status :=
  if isBlank request.type then DispatchRequest.invalidArgument "event type is required"
  else if request.json = false then DispatchRequest.invalidArgument "event payload is invalid"
  else none

def checkAndAdd : DispatchStores × Bool :=
  let checked := stores.dedup.checkAndAdd now request.route.kind (Int64.ofInt request.route.id)
    (Int64.ofInt request.idempotencyKey) request.type dedupTTL
  ({ stores with dedup := checked.1 }, checked.2)

def remove : DispatchStores :=
  { stores with
    dedup := stores.dedup.remove request.route.kind (Int64.ofInt request.route.id)
      (Int64.ofInt request.idempotencyKey) request.type }

/-- The answer to an event whose sequence may be behind the watermark is no error either way. -/
def accept (channelID : ℤ) : DispatchStores :=
  { stores with
    watermarks := (stores.watermarks.accept acceptedAt (request.route.watermarkKey channelID)
      request.streamSequence).1 }

def dispatchGuildEvent (guildID : ℤ) : DispatchStores × Option Status :=
  if guildID ≤ 0 then (stores, DispatchRequest.invalidArgument "guild id is required")
  else match request.validateEvent with
  | some refused => (stores, some refused)
  | none =>
    if request.idempotencyKey ≤ 0 then (stores, DispatchRequest.invalidArgument "idempotency key is required")
    else if EventType.ofName request.type = .presencePreferenceUpdated then
      (stores, DispatchRequest.invalidArgument "presence preference event must use a user route")
    else
      let added := (request.checkAndAdd stores now).1
      if (request.checkAndAdd stores now).2 = false then (added, none)
      else match RoutingPayload.decode request.payload with
      | none => (request.remove added, DispatchRequest.invalidArgument "event routing payload is invalid")
      | some payload =>
        if EventType.ofName request.type = .profileUpdated ∧ parseID payload.userID ≤ 0 then
          (request.remove added, DispatchRequest.invalidArgument "profile user id is required")
        else (added, none)

def dispatchGuildMessageEvent (guildID channelID : ℤ) : DispatchStores × Option Status :=
  if guildID ≤ 0 then (stores, DispatchRequest.invalidArgument "guild id is required")
  else if channelID ≤ 0 then (stores, DispatchRequest.invalidArgument "channel id is required")
  else match request.validateEvent with
  | some refused => (stores, some refused)
  | none =>
    if (EventType.ofName request.type).isMessage = false then
      (stores, DispatchRequest.invalidArgument "guild message event type is invalid")
    else if request.idempotencyKey ≤ 0 then
      (stores, DispatchRequest.invalidArgument "idempotency key is required")
    else
      let added := (request.checkAndAdd stores now).1
      if (request.checkAndAdd stores now).2 = false then (added, none)
      else (request.accept added acceptedAt channelID, none)

def dispatchUserEvent (userID : ℤ) : DispatchStores × Option Status :=
  if userID ≤ 0 then (stores, DispatchRequest.invalidArgument "user id is required")
  else match request.validateEvent with
  | some refused => (stores, some refused)
  | none =>
    if request.idempotencyKey ≤ 0 then (stores, DispatchRequest.invalidArgument "idempotency key is required")
    else if EventType.ofName request.type = .profileUpdated ∧ request.names RoutingPayload.userID = false then
      (stores, DispatchRequest.invalidArgument "profile user id is required")
    else
      let added := (request.checkAndAdd stores now).1
      if (request.checkAndAdd stores now).2 = false then (added, none)
      else if (EventType.ofName request.type).isMessage then
        match RoutingPayload.decode request.payload with
        | none => (added, DispatchRequest.invalidArgument "message event channel id is required")
        | some payload =>
          if parseID payload.channelID ≤ 0 then
            (added, DispatchRequest.invalidArgument "message event channel id is required")
          else (request.accept added acceptedAt (parseID payload.channelID), none)
      else (added, none)

def dispatch : DispatchStores × Option Status :=
  match request.route with
  | .guild guildID => request.dispatchGuildEvent stores now guildID
  | .guildMessage guildID channelID => request.dispatchGuildMessageEvent stores now acceptedAt guildID channelID
  | .user userID => request.dispatchUserEvent stores now acceptedAt userID

end Calls

end ReceivedRequest

/-- From now on the stores answer as before. -/
def DispatchStores.Undisturbed (now : ℤ) (before after : DispatchStores) : Prop :=
  after.watermarks = before.watermarks ∧
    ∀ later, now ≤ later → ∀ kind routeID eventID eventType ttl,
      (after.dedup.checkAndAdd later kind routeID eventID eventType ttl).2 =
        (before.dedup.checkAndAdd later kind routeID eventID eventType ttl).2

/-- A call that ends so has not failed, or leaves the stores answering as before. -/
def DispatchStores.Traceless (now : ℤ) (before : DispatchStores) (outcome : DispatchStores × Option Status) : Prop :=
  outcome.2 ≠ none → before.Undisturbed now outcome.1

section Stores

variable {stores before after : DispatchStores} {request : ReceivedRequest} {now acceptedAt : ℤ} {key : DedupKey}

theorem undisturbed_refl : DispatchStores.Undisturbed now stores stores := ⟨rfl, fun _ _ _ _ _ _ _ => rfl⟩

theorem traceless_success : DispatchStores.Traceless now stores (after, none) := fun failed => (failed rfl).elim

/-- A check that is made before the stores are changed. -/
theorem traceless_check {failed : Prop} [Decidable failed] {status : Option Status} {rest : DispatchStores × Option Status}
    (passed : ¬ failed → stores.Traceless now rest) :
    stores.Traceless now (if failed then (stores, status) else rest) := by
  split
  · exact fun _ => undisturbed_refl
  · next good => exact passed good

theorem not_live_later {ds : DedupStore} (free : ¬ Live (ds.tables key) now key) {later : ℤ} (order : now ≤ later) :
    ¬ Live (ds.tables key) later key := by
  rintro ⟨slot, expiresAt, entry, alive⟩
  exact free ⟨slot, expiresAt, entry, order.trans_lt alive⟩

/-- Stores that differ in one key, which neither holds, answer alike. -/
theorem undisturbed_of_free (marks : after.watermarks = before.watermarks)
    (others : ∀ other, other ≠ key → ∀ slot, after.dedup.tables other slot other = before.dedup.tables other slot other)
    (wasFree : ¬ Live (before.dedup.tables key) now key) (isFree : ¬ Live (after.dedup.tables key) now key) :
    DispatchStores.Undisturbed now before after := by
  refine ⟨marks, fun later order kind routeID eventID eventType ttl => ?_⟩
  by_cases zero : eventID = 0
  · simp only [checkAndAdd, zero, ↓reduceIte]
  have same : Live (after.dedup.tables (dedupKey kind routeID eventID eventType)) later
      (dedupKey kind routeID eventID eventType) ↔ Live (before.dedup.tables (dedupKey kind routeID eventID eventType))
      later (dedupKey kind routeID eventID eventType) := by
    by_cases isKey : dedupKey kind routeID eventID eventType = key
    · rw [isKey]
      exact iff_of_false (not_live_later isFree order) (not_live_later wasFree order)
    · simp only [Live, others _ isKey]
  rw [← answer_iff_live zero, ← answer_iff_live zero] at same
  exact Bool.eq_iff_iff.mpr (by simpa using not_congr same)

end Stores

namespace ReceivedRequest

variable {stores : DispatchStores} {request : ReceivedRequest} {now acceptedAt : ℤ}

/-- The key of the event in the deduplication store. -/
def storeKey (request : ReceivedRequest) : DedupKey :=
  dedupKey request.route.kind (Int64.ofInt request.route.id) (Int64.ofInt request.idempotencyKey) request.type

section

variable (keyed : 0 < request.idempotencyKey)

include keyed

theorem key_ne_zero : Int64.ofInt request.idempotencyKey ≠ 0 := by
  intro zero
  have fits := request.keyFits
  have value := congrArg Int64.toInt zero
  rw [Int64.toInt_ofInt_of_le (by omega) (by simp only [Go.maxInt64] at fits; omega)] at value
  exact absurd value (by simpa using keyed.ne')

theorem new_iff_free :
    (request.checkAndAdd stores now).2 = true ↔ ¬ Live (stores.dedup.tables request.storeKey) now request.storeKey := by
  rw [← Bool.not_eq_false]
  exact not_congr (answer_iff_live (key_ne_zero keyed) ..)

variable (new : (request.checkAndAdd stores now).2 = true)

include new

/-- What a new event changes in the store. -/
theorem checkAndAdd_dedup :
    (request.checkAndAdd stores now).1.dedup = ⟨update stores.dedup.shards (shardOf request.storeKey)
      ((stores.dedup.shards (shardOf request.storeKey)).insert request.storeKey (wrap64 (now + dedupTTL)))⟩ := by
  simp only [checkAndAdd, DedupStore.checkAndAdd, key_ne_zero keyed, ↓reduceIte] at new ⊢
  split_ifs at new ⊢
  rfl

theorem tables_added {other : DedupKey} (distinct : other ≠ request.storeKey) (slot : Fin dedupNumGens) :
    (request.checkAndAdd stores now).1.dedup.tables other slot other = stores.dedup.tables other slot other := by
  rw [checkAndAdd_dedup keyed new]
  exact tables_update_other (insert_entries_other _ distinct _) slot

/-- A new event that is taken out again leaves no trace. -/
theorem undisturbed_remove :
    DispatchStores.Undisturbed now stores (request.remove (request.checkAndAdd stores now).1) := by
  have removed : (request.remove (request.checkAndAdd stores now).1).dedup =
      ⟨update (request.checkAndAdd stores now).1.dedup.shards (shardOf request.storeKey)
        (((request.checkAndAdd stores now).1.dedup.shards (shardOf request.storeKey)).delete request.storeKey)⟩ :=
    if_neg (key_ne_zero keyed)
  refine undisturbed_of_free rfl (fun other distinct slot => ?_) ((new_iff_free keyed).mp new) ?_
  · rw [← tables_added keyed new distinct, removed]
    refine tables_update_other (fun slot => ?_) slot
    rw [delete_entries, update_of_ne distinct]
  · rintro ⟨slot, expiresAt, entry, _⟩
    rw [removed] at entry
    simp [tables, delete_entries] at entry

/-- A new event is in the store from now on, unless its lifetime is over at once. -/
theorem live_added :
    Live ((request.checkAndAdd stores now).1.dedup.tables request.storeKey) now request.storeKey ↔
      now < wrap64 (now + dedupTTL) := by
  have wasFree := (new_iff_free keyed).mp new
  rw [checkAndAdd_dedup keyed new]
  constructor
  · rintro ⟨slot, expiresAt, entry, alive⟩
    simp only [tables, update_self, DedupShard.insert] at entry
    by_cases atHead : slot = (stores.dedup.shards (shardOf request.storeKey)).head
    · subst atHead
      simp only [update_self, DedupGen.insert, Option.some.injEq] at entry
      exact entry ▸ alive
    · rw [update_of_ne atHead] at entry
      exact (wasFree ⟨slot, expiresAt, entry, alive⟩).elim
  · intro lasting
    refine ⟨(stores.dedup.shards (shardOf request.storeKey)).head, _, ?_, lasting⟩
    simp [tables, DedupShard.insert, DedupGen.insert]

end

theorem traceless_guildEvent (guildID : ℤ) : stores.Traceless now (request.dispatchGuildEvent stores now guildID) := by
  refine traceless_check fun _ => ?_
  split
  · exact fun _ => undisturbed_refl
  refine traceless_check fun unkeyed => traceless_check fun _ => ?_
  dsimp only
  split
  · exact traceless_success
  next known =>
  have undone := undisturbed_remove (not_le.mp unkeyed) (Bool.eq_true_of_not_eq_false known)
  split
  · exact fun _ => undone
  split
  · exact fun _ => undone
  · exact traceless_success

theorem traceless_guildMessageEvent (guildID channelID : ℤ) :
    stores.Traceless now (request.dispatchGuildMessageEvent stores now acceptedAt guildID channelID) := by
  refine traceless_check fun _ => traceless_check fun _ => ?_
  split
  · exact fun _ => undisturbed_refl
  refine traceless_check fun _ => traceless_check fun _ => ?_
  dsimp only
  split <;> exact traceless_success

/-- The request is a new message event for a user that names no channel, and nothing else is wrong with it.
The last condition leaves out the last two minutes of a 64-bit clock, when an addition is over at once. -/
structure NamesNoChannel (request : ReceivedRequest) (stores : DispatchStores) (now : ℤ) (userID : ℤ) : Prop where
  user : 0 < userID
  valid : request.validateEvent = none
  keyed : 0 < request.idempotencyKey
  message : (EventType.ofName request.type).isMessage = true
  unnamed : request.names RoutingPayload.channelID = false
  new : (request.checkAndAdd stores now).2 = true
  lasts : now < wrap64 (now + dedupTTL)

theorem userEvent_of_namesNoChannel {userID : ℤ} (names : request.NamesNoChannel stores now userID) :
    request.dispatchUserEvent stores now acceptedAt userID = ((request.checkAndAdd stores now).1,
      invalidArgument "message event channel id is required") := by
  obtain ⟨user, valid, keyed, message, unnamed, new, _⟩ := names
  have noProfile : EventType.ofName request.type ≠ .profileUpdated := fun profile => by
    rw [profile] at message
    cases message
  simp only [dispatchUserEvent, not_le.mpr user, valid, not_le.mpr keyed, noProfile, false_and, new, message, ↓reduceIte,
    Bool.true_eq_false]
  cases decoded : RoutingPayload.decode request.payload with
  | none => rfl
  | some payload =>
    have unnamed : parseID payload.channelID ≤ 0 := by simpa [names, decoded] using unnamed
    simp only [unnamed, ↓reduceIte]

/-- A call for a user that fails after it has added its event is one for a message without a channel. -/
theorem traceless_userEvent {userID : ℤ} (names : ¬ request.NamesNoChannel stores now userID) :
    stores.Traceless now (request.dispatchUserEvent stores now acceptedAt userID) := by
  refine traceless_check fun user => ?_
  split
  · exact fun _ => undisturbed_refl
  next valid =>
  refine traceless_check fun unkeyed => traceless_check fun _ => ?_
  dsimp only
  split
  · exact traceless_success
  next known =>
  split
  · next message =>
    have keyed := not_le.mp unkeyed
    have new := Bool.eq_true_of_not_eq_false known
    have added (unnamed : request.names RoutingPayload.channelID = false) :
        DispatchStores.Undisturbed now stores (request.checkAndAdd stores now).1 := by
      refine undisturbed_of_free rfl (fun _ distinct slot => tables_added keyed new distinct slot)
        ((new_iff_free keyed).mp new) (mt (live_added keyed new).mp fun lasts => ?_)
      exact names ⟨not_le.mp user, valid, keyed, message, unnamed, new, lasts⟩
    split
    · next decoded => exact fun _ => added (by simp [DispatchRequest.names, decoded])
    · next payload decoded =>
      split
      · next unnamed => exact fun _ => added (by simp [DispatchRequest.names, decoded, unnamed])
      · exact traceless_success
  · exact traceless_success

end ReceivedRequest

open ReceivedRequest in
/-- A failed call leaves both stores answering as before, except for a new message event of a user that names
no channel. -/
theorem failed_dispatch_undisturbed (request : ReceivedRequest) (stores : DispatchStores) (now acceptedAt : ℤ) :
    stores.Traceless now (request.dispatch stores now acceptedAt) ↔
      ∀ userID, request.route = .user userID → ¬ request.NamesNoChannel stores now userID := by
  constructor
  · intro undisturbed userID route names
    have answer : request.dispatch stores now acceptedAt = ((request.checkAndAdd stores now).1,
        DispatchRequest.invalidArgument "message event channel id is required") := by
      rw [← userEvent_of_namesNoChannel names, dispatch, route]
    rw [answer] at undisturbed
    -- the same request again, at the same time
    have retried := (undisturbed (by simp [DispatchRequest.invalidArgument])).2 now le_rfl request.route.kind
      (Int64.ofInt request.route.id) (Int64.ofInt request.idempotencyKey) request.type dedupTTL
    have held := (DedupStore.answer_iff_live (key_ne_zero names.keyed) _ _ _ dedupTTL).mpr
      ((live_added names.keyed names.new).mpr names.lasts)
    exact Bool.false_ne_true (held.symm.trans (retried.trans names.new))
  · intro named
    unfold dispatch
    split
    · exact traceless_guildEvent _
    · exact traceless_guildMessageEvent _ _
    · next userID route => exact traceless_userEvent (named userID route)

private def message (payload : Go.Json) : ReceivedRequest where
  route := .user 7
  type := "message.created"
  payload
  idempotencyKey := 1
  keyFits := by decide

private def emptyStores : DispatchStores := ⟨newDedupStore, newWatermarkStore⟩

/-- A message event without a channel is refused, and its retry with one is answered without delivery. -/
theorem refused_message_taken_for_repetition :
    let refused := (message (.object [])).dispatch emptyStores 0 0
    refused.2 = some ⟨.invalidArgument, "message event channel id is required"⟩ ∧
      ((message (.object [("channel_id", .string "9")])).checkAndAdd refused.1 0).2 = false ∧
      ((message (.object [("channel_id", .string "9")])).checkAndAdd emptyStores 0).2 = true := by
  decide

end Cordis.Session
