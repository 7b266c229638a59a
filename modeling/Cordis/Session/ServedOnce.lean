import Cordis.Session.SharedEvents

/-! # Every session is served once

If a call that lists one session of a user lists all sessions of the user that any of the addressed
routes would list, then a profile or presence event reaches every session that stays indexed exactly
once, over whatever routes it comes and however often, while the marks last. Without that the mark a
user got over one route hides the event from the sessions that only another route lists.
-/

namespace Cordis.Session

open DispatchNode Pool DispatchCall

/-! ## The premises -/

/-- What is asked of a request: its ids can be held, no other type has the hash of the event's, and if
it carries the event then the node takes the payload, and it comes no earlier than `opened`. -/
structure Proper (shared : SharedEvent) (opened : ℤ) (route : DispatchRoute) (envelope : EventEnvelope) (now : ℤ) :
    Prop where
  ranged : IsInt64 route.id ∧ IsInt64 envelope.idempotencyKey
  hashed : hashEventType envelope.type = hashEventType shared.type → envelope.type = shared.type
  carried : envelope.Carries shared → envelope.Decoded ∧ opened ≤ now

/-- The step is taken within the lifetime of a mark that is set at `opened`. -/
structure Within (shared : SharedEvent) (opened : ℤ) (step : DispatchEvent) : Prop where
  lasting : ∀ now ∈ step.time, -2 ^ 63 ≤ now ∧ now + dedupTTL < 2 ^ 63 ∧ now < opened + dedupTTL
  proper : ∀ request ∈ step.request, Proper shared opened request.1 request.2.1 request.2.2

variable (shared : SharedEvent)

instance (opened : ℤ) (route : DispatchRoute) (envelope : EventEnvelope) (now : ℤ) :
    Decidable (Proper shared opened route envelope now) :=
  decidable_of_iff (_ ∧ _ ∧ _) ⟨fun ⟨ranged, hashed, carried⟩ => ⟨ranged, hashed, carried⟩,
    fun proper => ⟨proper.ranged, proper.hashed, proper.carried⟩⟩

instance (opened : ℤ) (step : DispatchEvent) : Decidable (Within shared opened step) :=
  decidable_of_iff (_ ∧ _) ⟨fun ⟨lasting, proper⟩ => ⟨lasting, proper⟩, fun within => ⟨within.lasting, within.proper⟩⟩

/-- The call whose stage the step is, when the stage lists sessions. -/
def DispatchNode.lister (node : DispatchNode) (step : DispatchEvent) : Option DispatchCall :=
  step.listing.bind node.calls

/-- The session of the user is indexed under the route whenever a call of the event lists sessions. -/
def Stays (ref : SessionRef) (userID : ℤ) (route : DispatchRoute) (node : DispatchNode)
    (step : DispatchEvent) : Prop :=
  ∀ call ∈ node.lister step, call.event.Carries shared →
    (ref ∈ route.members node.reg ∧ node.reg.userOf ref = userID ∧ IsInt64 userID) ∧
    ∀ listed ∈ call.route.members node.reg, IsInt64 (node.reg.userOf listed)
deriving Decidable

/-- A call of the event that lists a session of a user lists all sessions of the user that are indexed
under an addressed route. -/
def ListsWhole (addressed : List DispatchRoute) (node : DispatchNode) (step : DispatchEvent) : Prop :=
  ∀ call ∈ node.lister step, call.event.Carries shared → ∀ listed ∈ call.route.members node.reg,
    ∀ route ∈ addressed, ∀ other ∈ route.members node.reg, node.reg.userOf other = node.reg.userOf listed →
      other ∈ call.route.members node.reg
deriving Decidable

/-- The event has been handed to the session. -/
def Received (ref : SessionRef) (entry : EventEnvelope × Offer) : Bool :=
  decide (entry.1.Carries shared ∧ entry.2 = entry.1.offerTo ref)

/-- A call of the event has been made on the route. -/
def Begun (route : DispatchRoute) (started : List (DispatchRoute × EventEnvelope)) : Prop :=
  ∃ envelope, envelope.Carries shared ∧ (route, envelope) ∈ started

section Requests

variable {shared : SharedEvent} {opened now : ℤ} {route request : DispatchRoute} {envelope : EventEnvelope}
  {started answered : List (DispatchRoute × EventEnvelope)}

theorem begun_cons : Begun shared route ((request, envelope) :: started) ↔
    envelope.Carries shared ∧ route = request ∨ Begun shared route started := by
  constructor
  · rintro ⟨found, carried, member⟩
    rcases List.mem_cons.mp member with same | before
    · cases same
      exact .inl ⟨carried, rfl⟩
    · exact .inr ⟨found, carried, before⟩
  · rintro (⟨carries, rfl⟩ | ⟨found, carried, before⟩)
    · exact ⟨envelope, carries, List.mem_cons_self⟩
    · exact ⟨found, carried, List.mem_cons_of_mem _ before⟩

/-- What is on record of the requests: they can be told apart, and what was answered at once for a
repetition has been made before. -/
structure Known (shared : SharedEvent) (started answered : List (DispatchRoute × EventEnvelope)) : Prop where
  ranged : ∀ request ∈ started, IsInt64 request.1.id ∧ IsInt64 request.2.idempotencyKey
  hashed : ∀ request ∈ started, hashEventType request.2.type = hashEventType shared.type →
    request.2.type = shared.type
  answers : ∀ request ∈ answered, request.2.Carries shared → Begun shared request.1 started

/-- The store tells the event from all other started requests. -/
theorem Known.carries (known : Known shared started answered) (member : (request, envelope) ∈ started)
    (keys : Int64.ofInt envelope.idempotencyKey = Int64.ofInt shared.idempotencyKey)
    (hashes : hashEventType envelope.type = hashEventType shared.type) : envelope.Carries shared :=
  ⟨(known.ranged _ member).2.ofInt_inj shared.ranged keys, known.hashed _ member hashes⟩

/-- A request carrying the event that is taken for a repetition was made on the same route before. -/
theorem Known.begun {node : DispatchNode} (known : Known shared node.started answered)
    (recorded : Recorded node.dedup node.calls node.started) (repeated : ¬ node.IsNew route envelope now)
    (carries : envelope.Carries shared) (admits : route.Admits envelope) (ranged : IsInt64 route.id) :
    Begun shared route node.started := by
  obtain ⟨⟨earlier, found⟩, member, same⟩ := recorded.started_of_known repeated
  have carried : found.Carries shared := by
    refine known.carries member ?_ ?_
    · rw [← carries.1]
      exact congrArg DedupKey.eventID same
    · rw [← carries.2]
      exact congrArg DedupKey.eventNamespace same
  have ids : earlier.id = route.id :=
    (known.ranged _ member).1.ofInt_inj ranged (congrArg DedupKey.routeID same)
  have kinds : earlier.kind = route.kind := congrArg DedupKey.routeKind same
  have unmessaged : (EventType.ofName envelope.type).isMessage = false := by
    rw [carries.2]
    rcases shared.typed with ⟨typed, _⟩ | ⟨typed, _⟩ <;> rw [typed] <;> rfl
  suffices earlier = route by exact ⟨found, carried, this ▸ member⟩
  cases route with
  | guildMessage guildID channelID => cases unmessaged.symm.trans admits.2.2.2
  | guild guildID =>
    cases earlier with
    | guild => exact congrArg _ ids
    | _ => cases kinds
  | user userID =>
    cases earlier with
    | user => exact congrArg _ ids
    | _ => cases kinds

theorem Known.transition {cfg : NodeConfig} {node next : DispatchNode} {step : DispatchEvent}
    (known : Known shared node.started node.answered) (recorded : Recorded node.dedup node.calls node.started)
    (within : Within shared opened step) (transition : node.Transition cfg step next) :
    Known shared next.started next.answered := by
  cases transition with
  | @dispatch id route envelope revision now free admits past =>
    have proper := within.proper (route, envelope, now) rfl
    by_cases new : node.IsNew route envelope now
    · rw [request_of_isNew new]
      constructor
      · exact List.forall_mem_cons.mpr ⟨proper.ranged, known.ranged⟩
      · exact List.forall_mem_cons.mpr ⟨proper.hashed, known.hashed⟩
      · exact fun request member carries => begun_cons.mpr (.inr (known.answers request member carries))
    · rw [request_of_not_isNew new]
      refine { known with answers := List.forall_mem_cons.mpr ⟨fun carries => ?_, known.answers⟩ }
      exact known.begun recorded new carries admits proper.ranged.1
  | list current stages lists all =>
    obtain ⟨_, _, moved, _⟩ := list_eq _ _ _ lists
    rw [moved]
    exact known
  | run current stages ran =>
    obtain ⟨_, _, _, _, _, _, _, rfl, _, _, _, _, own⟩ := runStage_eq_some ran
    refine { known with answers := fun request member carries => ?_ }
    rcases List.mem_cons.mp (own member) with rfl | before
    · exact ⟨_, carries, recorded.running _ _ current⟩
    · exact known.answers request before carries
  | check current stages job checked =>
    obtain ⟨users, dedup, withheld, offers, rfl, _⟩ := checkUser_eq_some checked
    exact known
  | _ => exact known

end Requests

section Serving

variable (shared : SharedEvent) (ref : SessionRef) (userID : ℤ) (route : DispatchRoute) (opened : ℤ)

/-- The calls of the event. -/
def carrying (calls : Pool ℕ DispatchCall) : Pool ℕ DispatchCall :=
  calls.filter fun call => decide (call.event.Carries shared)

/-- The event stands well with the session at a time. -/
structure Serves (now : ℤ) (dedup : DedupStore) (calls : Pool ℕ DispatchCall)
    (started : List (DispatchRoute × EventEnvelope)) (offered : List (EventEnvelope × Offer)) : Prop where
  course : (carrying shared calls).All fun _ call => Course shared ref userID call.stages ∧ opened ≤ now
  standing : ∃ lasts, dedup.Marks now (shared.servedKey userID) lasts ∧
    Standing shared ref userID route opened lasts (carrying shared calls) (Begun shared route started)
      (offered.countP (Received shared ref))

variable {shared ref userID route opened}

variable {clock now : ℤ} {dedup after : DedupStore} {calls : Pool ℕ DispatchCall}
  {started answered : List (DispatchRoute × EventEnvelope)} {offered : List (EventEnvelope × Offer)}
  {id : ℕ} {call moved : DispatchCall} {stage : Stage} {rest : List Stage}
  {cfg : NodeConfig} {node next : DispatchNode} {step : DispatchEvent}

theorem carrying_eq_some (current : calls id = some call) (carries : call.event.Carries shared) :
    carrying shared calls id = some call :=
  filter_eq_some.mpr ⟨current, decide_eq_true carries⟩

theorem carrying_set (carries : moved.event.Carries shared) :
    carrying shared (calls.set id moved) = (carrying shared calls).set id moved :=
  filter_set_of_pos (by exact decide_eq_true carries) id

/-- Other calls come and go. -/
theorem carrying_set_of_not (foreign : ¬ moved.event.Carries shared)
    (before : ∀ old, calls id = some old → old.event = moved.event) :
    carrying shared (calls.set id moved) = carrying shared calls :=
  filter_set_of_neg (decide_eq_false foreign) fun old found =>
    decide_eq_false fun carries => foreign (before old found ▸ carries)

theorem Serves.advance (serves : Serves shared ref userID route opened clock dedup calls started offered)
    (order : clock ≤ now) : Serves shared ref userID route opened now dedup calls started offered := by
  obtain ⟨lasts, marks, standing⟩ := serves.standing
  refine ⟨serves.course.mono fun _ _ _ ⟨course, late⟩ => ⟨course, late.trans order⟩, lasts, ?_, standing⟩
  exact marks.advance order

/-! ### Keys of other calls -/

theorem route_ne_servedKey (request : DispatchRoute) (routeID eventID : Int64) (eventType : String) :
    dedupKey request.kind routeID eventID eventType ≠ shared.servedKey userID := by
  intro same
  have kinds : request.kind = shared.kind := congrArg DedupKey.routeKind same
  refine DispatchRoute.not_onceKind request (kinds ▸ ?_)
  exact shared.typed.imp And.right And.right

variable {gate : Gate} {jobs : List (ℤ × List SessionRef)} {queue : List Offer} {checkedID : ℤ} {refs : List SessionRef}
  {visibility : Except Status VisibilitySnapshot}

/-! ### Steps -/

/-- Nothing happens to the calls of the event. -/
theorem Serves.other (serves : Serves shared ref userID route opened now dedup calls started offered)
    (marks : ∀ lasts, dedup.Marks now (shared.servedKey userID) lasts → after.Marks now (shared.servedKey userID) lasts)
    {calls' : Pool ℕ DispatchCall} (same : carrying shared calls' = carrying shared calls)
    {started' : List (DispatchRoute × EventEnvelope)} (begun : Begun shared route started' ↔ Begun shared route started)
    {offered' : List (EventEnvelope × Offer)}
    (handed : offered'.countP (Received shared ref) = offered.countP (Received shared ref)) :
    Serves shared ref userID route opened now after calls' started' offered' := by
  obtain ⟨lasts, marked, standing⟩ := serves.standing
  constructor
  · rw [same]
    exact serves.course
  · refine ⟨lasts, marks lasts marked, ?_⟩
    rw [same, begun, handed]
    exact standing

/-- A call of the event moves on. -/
theorem Serves.move (serves : Serves shared ref userID route opened now dedup calls started offered)
    (current : calls id = some call) (carries : call.event.Carries shared) {later : List Stage}
    (course : Course shared ref userID later) {offered' : List (EventEnvelope × Offer)}
    (standing : ∀ lasts, dedup.Marks now (shared.servedKey userID) lasts → opened ≤ now →
      Standing shared ref userID route opened lasts (carrying shared calls) (Begun shared route started)
        (offered.countP (Received shared ref)) →
      ∃ lasts, after.Marks now (shared.servedKey userID) lasts ∧
        Standing shared ref userID route opened lasts
          ((carrying shared calls).set id { call with stages := later })
          (Begun shared route started) (offered'.countP (Received shared ref))) :
    Serves shared ref userID route opened now after (calls.set id { call with stages := later }) started offered' := by
  have carried : ({ call with stages := later } : DispatchCall).event.Carries shared := carries
  have late := (serves.course id call (carrying_eq_some current carries)).2
  obtain ⟨lasts, marks, stands⟩ := serves.standing
  constructor
  · rw [carrying_set carried]
    exact serves.course.set ⟨course, late⟩
  · rw [carrying_set carried]
    exact standing lasts marks late stands

theorem Serves.request (serves : Serves shared ref userID route opened now node.dedup node.calls node.started node.offered)
    {request : DispatchRoute} {envelope : EventEnvelope} (free : node.calls id = none) (admits : request.Admits envelope)
    (proper : Proper shared opened request envelope now) (fits : -2 ^ 63 ≤ now ∧ now + dedupTTL < 2 ^ 63)
    (revision : ℕ) :
    Serves shared ref userID route opened now (node.request id request envelope revision now).dedup
      (node.request id request envelope revision now).calls (node.request id request envelope revision now).started
      (node.request id request envelope revision now).offered := by
  have marks : ∀ lasts, node.dedup.Marks now (shared.servedKey userID) lasts →
      (node.dedup.checkAndAdd now request.kind (Int64.ofInt request.id) (Int64.ofInt envelope.idempotencyKey)
        envelope.type dedupTTL).1.Marks now (shared.servedKey userID) lasts :=
    fun lasts marked => marked.add_other (route_ne_servedKey _ _ _ _) ⟨fits.1, by decide, fits.2⟩
  by_cases new : node.IsNew request envelope now
  · rw [request_of_isNew new]
    by_cases carries : envelope.Carries shared
    · obtain ⟨decoded, late⟩ := proper.carried carries
      have stages := carries.stages decoded admits
      obtain ⟨lasts, marked, standing⟩ := serves.standing
      have absent : carrying shared node.calls id = none := by
        rw [carrying, filter, free]
        rfl
      constructor
      · rw [carrying_set carries]
        refine serves.course.set ⟨?_, late⟩
        rw [stages]
        exact .listing
      · refine ⟨lasts, marks lasts marked, ?_⟩
        rw [carrying_set carries, begun_cons, and_iff_right carries]
        exact standing.start absent rfl stages
    · refine serves.other marks (carrying_set_of_not (by exact carries) fun old found => ?_) ?_ rfl
      · cases free.symm.trans found
      · exact begun_cons.trans (or_iff_right fun own => carries own.1)
  · rw [request_of_not_isNew new]
    exact serves.other marks rfl Iff.rfl rfl

variable {order : List SessionRef}

theorem fair_byUser {reg : Registry} (nodup : order.Nodup) (owner : reg.userOf ref = userID)
    (whole : ∀ listed ∈ order, reg.userOf listed = userID → ref ∈ order) (ranged : IsInt64 userID)
    (others : ∀ listed ∈ order, IsInt64 (reg.userOf listed)) : Fair ref userID (reg.byUser order) := by
  have made : ∀ job ∈ reg.byUser order, (∃ listed ∈ order, reg.userOf listed = job.1) ∧
      job.2 = order.filter fun ref => decide (reg.userOf ref = job.1) := by
    intro job member
    obtain ⟨found, user, rfl⟩ := List.mem_map.mp member
    exact ⟨List.mem_map.mp (List.mem_dedup.mp user), rfl⟩
  constructor
  · intro job member own
    obtain ⟨⟨listed, present, user⟩, refs⟩ := made job member
    rw [refs]
    refine List.count_eq_one_of_mem (nodup.filter _) (List.mem_filter.mpr ⟨?_, ?_⟩)
    · exact whole listed present (user.trans own)
    · exact decide_eq_true (owner.trans own.symm)
  · intro job member differs listed
    rw [(made job member).2] at listed
    exact differs ((of_decide_eq_true (List.mem_filter.mp listed).2).symm.trans owner)
  · intro job member same
    obtain ⟨⟨listed, present, user⟩, _⟩ := made job member
    rw [← user] at same ⊢
    exact (others listed present).ofInt_inj ranged same

theorem Fair.filter (fair : Fair ref userID jobs) (keep : ℤ × List SessionRef → Bool) :
    Fair ref userID (jobs.filter keep) where
  own job member := fair.own job (List.mem_of_mem_filter member)
  others job member := fair.others job (List.mem_of_mem_filter member)
  distinct job member := fair.distinct job (List.mem_of_mem_filter member)

section

variable (serves : Serves shared ref userID route opened now node.dedup node.calls node.started node.offered)

include serves

theorem Serves.list {set : Finset SessionRef} {addressed : List DispatchRoute}
    (current : node.calls id = some call) (stages : call.stages = stage :: rest)
    (lists : call.lists node.reg stage = some set) (all : sessionsFromSet set order) (member : route ∈ addressed)
    (stays : Stays shared ref userID route node (.list id order))
    (whole : ListsWhole shared addressed node (.list id order)) :
    Serves shared ref userID route opened now node.dedup
      (node.calls.set id { call with stages := call.expand node.reg order stage ++ rest }) node.started node.offered := by
  by_cases carries : call.event.Carries shared
  · have course := (serves.course id call (carrying_eq_some current carries)).1
    rw [stages] at course
    cases course with
    | delivering => cases lists
    | listing =>
      cases lists
      obtain ⟨⟨indexed, owner, ranged⟩, others⟩ := stays call current carries
      have listed : ∀ other, other ∈ order ↔ other ∈ call.route.members node.reg := fun other => by
        rw [← all.2, List.mem_toFinset]
      have fair : Fair ref userID (node.reg.byUser order) := by
        refine fair_byUser all.1 owner (fun other present user => ?_) ranged fun other present =>
          others other ((listed other).mp present)
        refine (listed ref).mpr (whole call current carries other ((listed other).mp present) route member ref indexed ?_)
        exact owner.trans user.symm
      refine serves.move current carries (.delivering fair) fun lasts marks _ standing => ⟨lasts, marks, ?_⟩
      refine standing.set (carrying_eq_some current carries) ?_ fun _ coming => ?_
      · simp [due, stages]
      · have present : ref ∈ order := by
          rw [listed, coming.1]
          exact indexed
        have user : userID ∈ node.reg.usersOf order := List.mem_dedup.mpr (List.mem_map.mpr ⟨ref, present, owner⟩)
        exact ⟨coming.1, .inr ⟨_, _, _, rfl, List.mem_map.mpr ⟨userID, user, rfl⟩⟩⟩
  · refine serves.other (fun _ marks => marks) (carrying_set_of_not (by exact carries) fun old found => ?_) Iff.rfl rfl
    cases current.symm.trans found
    rfl

theorem Serves.runStage (current : node.calls id = some call) (stages : call.stages = stage :: rest)
    (ran : node.runStage id call rest now stage = some next) :
    Serves shared ref userID route opened now next.dedup next.calls next.started next.offered := by
  by_cases carries : call.event.Carries shared
  · have course := (serves.course id call (carrying_eq_some current carries)).1
    rw [stages] at course
    cases course with
    | listing => cases ran
    | delivering fair =>
      obtain ⟨rfl, rfl⟩ := runStage_deliver ran
      cases ran
      refine serves.move current carries .ended fun lasts marks _ standing => ⟨lasts, marks, ?_⟩
      refine standing.set (carrying_eq_some current carries) ?_ fun _ coming => ?_
      · simp [due, stages]
      · rcases coming with ⟨_, begins | ⟨_, _, _, delivers, waiting⟩⟩
        · cases stages.symm.trans begins
        · cases stages.symm.trans delivers
          cases waiting
  · obtain ⟨_, _, _, _, _, _, moved, rfl, same, _, _, dedup, _⟩ := runStage_eq_some ran
    refine serves.other (fun lasts marks => ?_) (carrying_set_of_not (same.event ▸ carries) fun old found => ?_) Iff.rfl rfl
    · rcases dedup with rfl | rfl
      · exact marks
      · exact marks.remove_other (route_ne_servedKey call.route _ _ _)
    · cases current.symm.trans found
      exact same.event.symm

end

/-- A check that serves the user once hands the event on unless the user is marked. -/
theorem checkUser_once {kind : UInt8}
    (checked : node.checkUser id call (.once kind) jobs queue rest checkedID refs visibility now = some next) :
    ∃ withheld offers, next = { node with
        withheld
        dedup := (node.dedup.checkAndAdd now kind (Int64.ofInt checkedID) (Int64.ofInt call.event.idempotencyKey)
          call.event.type dedupTTL).1
        calls := node.calls.set id { call with
          stages := .deliver (.once kind) (jobs.filter fun job => decide (job.1 ≠ checkedID)) (queue ++ offers) ::
            rest } } ∧
      (offers = call.offers refs ∧ (node.dedup.checkAndAdd now kind (Int64.ofInt checkedID)
          (Int64.ofInt call.event.idempotencyKey) call.event.type dedupTTL).2 = true ∨
        offers = [] ∧ (node.dedup.checkAndAdd now kind (Int64.ofInt checkedID)
          (Int64.ofInt call.event.idempotencyKey) call.event.type dedupTTL).2 = false) := by
  simp only [checkUser, Option.some.injEq] at checked
  split_ifs at checked with fresh
  · cases checked
    exact ⟨_, _, rfl, .inl ⟨rfl, fresh⟩⟩
  · cases checked
    exact ⟨_, _, rfl, .inr ⟨rfl, Bool.eq_false_iff.mpr fresh⟩⟩

theorem count_offers (call : DispatchCall) (ref : SessionRef) (refs : List SessionRef) :
    (call.offers refs).count (call.event.offerTo ref) = refs.count ref :=
  List.count_map_of_injective _ _ (fun _ _ same => congrArg Offer.ref same) _

section

variable (serves : Serves shared ref userID route opened now node.dedup node.calls node.started node.offered)

include serves

theorem Serves.check (known : Known shared node.started answered)
    (recorded : Recorded node.dedup node.calls node.started)
    (current : node.calls id = some call) (stages : call.stages = .deliver gate jobs queue :: rest)
    (job : jobs.lookup checkedID = some refs)
    (checked : node.checkUser id call gate jobs queue rest checkedID refs visibility now = some next)
    (fits : -2 ^ 63 ≤ now ∧ now + dedupTTL < 2 ^ 63) (lasting : now < opened + dedupTTL) :
    Serves shared ref userID route opened now next.dedup next.calls next.started next.offered := by
  by_cases carries : call.event.Carries shared
  · have mine := carrying_eq_some current carries
    have course := (serves.course id call mine).1
    rw [stages] at course
    cases course with
    | delivering fair =>
      have waiting : (checkedID, refs) ∈ jobs := by
        obtain ⟨before, behind, rfl, _⟩ := List.lookup_eq_some_iff.mp job
        exact List.mem_append_right _ List.mem_cons_self
      obtain ⟨withheld, offers, rfl, answer⟩ := checkUser_once checked
      simp only [carries.1, carries.2] at answer ⊢
      refine serves.move current carries (.delivering (fair.filter _)) fun lasts marks late standing => ?_
      have before : call.due ref = queue.count (call.event.offerTo ref) := by rw [due, stages]
      have added : ∀ offers : List Offer, (queue ++ offers).count (call.event.offerTo ref) =
          call.due ref + offers.count (call.event.offerTo ref) := fun offers => by rw [List.count_append, before]
      by_cases own : checkedID = userID
      · subst own
        rcases standing.free_or_held with free | held
        · refine ⟨_, marks.add free shared.keyed ⟨fits.1, by decide, fits.2⟩, ?_⟩
          rcases answer with ⟨rfl, _⟩ | ⟨_, known⟩
          · refine standing.serve free (by omega) mine ((added _).trans ?_)
            rw [count_offers, fair.own _ waiting rfl]
          · exact absurd ((marks.answer shared.keyed).mp known) (free now)
        · refine ⟨lasts, marks.add_held (held now lasting) ⟨fits.1, by decide, fits.2⟩, ?_⟩
          rcases answer with ⟨_, fresh⟩ | ⟨rfl, _⟩
          · cases ((marks.answer shared.keyed).mpr (held now lasting)).symm.trans fresh
          · exact standing.set mine (added []) fun free => absurd (held now lasting) (free now)
      · have other : dedupKey shared.kind (Int64.ofInt checkedID) (Int64.ofInt shared.idempotencyKey) shared.type ≠
            shared.servedKey userID := fun same =>
          own (fair.distinct _ waiting (congrArg DedupKey.routeID same))
        have unheard : offers.count (call.event.offerTo ref) = 0 := by
          rcases answer with ⟨rfl, _⟩ | ⟨rfl, _⟩
          · rw [count_offers]
            exact List.count_eq_zero.mpr (fair.others _ waiting own)
          · rfl
        refine ⟨lasts, marks.add_other other ⟨fits.1, by decide, fits.2⟩, ?_⟩
        refine standing.set mine ((added offers).trans (by rw [unheard, Nat.add_zero])) fun _ coming => ⟨coming.1, .inr ?_⟩
        rcases coming with ⟨_, begins | ⟨_, _, served, delivers, listed⟩⟩
        · cases stages.symm.trans begins
        · cases stages.symm.trans delivers
          exact ⟨_, _, served, rfl, List.mem_filter.mpr ⟨listed, decide_eq_true (Ne.symm own)⟩⟩
  · obtain ⟨users, _, withheld, offers, rfl, _, _, dedup⟩ := checkUser_eq_some checked
    refine serves.other (fun lasts marks => ?_) (carrying_set_of_not (by exact carries) fun old found => ?_) Iff.rfl rfl
    · rcases dedup with rfl | ⟨kind, rfl, rfl⟩
      · exact marks
      · -- a call of another event marks users under other keys
        refine marks.add_other (fun same => carries ?_) ⟨fits.1, by decide, fits.2⟩
        exact known.carries (recorded.running id call current) (congrArg DedupKey.eventID same)
          (congrArg DedupKey.eventNamespace same)
    cases current.symm.trans found
    rfl

theorem Serves.offer {item : Offer}
    (current : node.calls id = some call) (stages : call.stages = .deliver gate jobs queue :: rest)
    (waiting : item ∈ queue) :
    Serves shared ref userID route opened now node.dedup
      (node.calls.set id { call with stages := .deliver gate jobs (queue.erase item) :: rest }) node.started
      ((call.event, item) :: node.offered) := by
  by_cases carries : call.event.Carries shared
  · have mine := carrying_eq_some current carries
    have course := (serves.course id call mine).1
    rw [stages] at course
    cases course with
    | delivering fair =>
      refine serves.move current carries (.delivering fair) fun lasts marks _ standing => ⟨lasts, marks, ?_⟩
      have before : call.due ref = queue.count (call.event.offerTo ref) := by rw [due, stages]
      by_cases this : item = call.event.offerTo ref
      · subst this
        have received : Received shared ref (call.event, call.event.offerTo ref) = true := decide_eq_true ⟨carries, rfl⟩
        rw [List.countP_cons_of_pos received]
        refine standing.hand mine ?_ ?_
        · rw [before]
          exact List.count_pos_iff.mpr waiting
        · rw [before]
          exact List.count_erase_self
      · have unreceived : ¬ Received shared ref (call.event, item) = true := fun received =>
          this (of_decide_eq_true received).2
        rw [List.countP_cons_of_neg unreceived]
        refine standing.set mine ?_ fun _ coming => ⟨coming.1, .inr ?_⟩
        · rw [before]
          exact List.count_erase_of_ne (Ne.symm this)
        · rcases coming with ⟨_, begins | ⟨_, _, served, delivers, listed⟩⟩
          · cases stages.symm.trans begins
          · cases stages.symm.trans delivers
            exact ⟨_, _, served, rfl, listed⟩
  · refine serves.other (fun _ marks => marks) (carrying_set_of_not (by exact carries) fun old found => ?_) Iff.rfl ?_
    · cases current.symm.trans found
      rfl
    · exact List.countP_cons_of_neg fun received => carries (of_decide_eq_true received).1

end

theorem Serves.finish (serves : Serves shared ref userID route opened now dedup calls started offered)
    (current : calls id = some call) (stages : call.stages = []) :
    Serves shared ref userID route opened now dedup (calls.drop id) started offered := by
  obtain ⟨lasts, marks, standing⟩ := serves.standing
  have dropped : carrying shared (calls.drop id) = (carrying shared calls).drop id := filter_drop ..
  constructor
  · rw [dropped]
    exact serves.course.drop id
  · refine ⟨lasts, marks, ?_⟩
    rw [dropped]
    exact standing.drop fun found running => by
      cases current.symm.trans (filter_eq_some.mp running).1
      exact stages

theorem Serves.transition
    (serves : Serves shared ref userID route opened now node.dedup node.calls node.started node.offered)
    (known : Known shared node.started node.answered) (recorded : Recorded node.dedup node.calls node.started)
    (within : Within shared opened step) (timed : ∀ time ∈ step.time, time = now) {addressed : List DispatchRoute}
    (member : route ∈ addressed) (stays : Stays shared ref userID route node step)
    (whole : ListsWhole shared addressed node step) (transition : node.Transition cfg step next) :
    Serves shared ref userID route opened now next.dedup next.calls next.started next.offered := by
  cases transition with
  | @dispatch id request envelope revision time free admits past =>
    obtain rfl := timed time rfl
    obtain ⟨low, high, _⟩ := within.lasting time rfl
    exact serves.request free admits (within.proper _ rfl) ⟨low, high⟩ revision
  | list current stages lists all =>
    have moved := serves.list current stages lists all member stays whole
    obtain ⟨_, _, next, _⟩ := list_eq _ _ _ lists
    rw [next]
    exact moved
  | @run id time call stage rest next current stages ran =>
    obtain rfl := timed time rfl
    exact serves.runStage current stages ran
  | @check id userID visibility time call gate jobs queue rest refs next current stages job checked =>
    obtain rfl := timed time rfl
    obtain ⟨low, high, lasting⟩ := within.lasting time rfl
    exact serves.check known recorded current stages job checked ⟨low, high⟩ lasting
  | offer current stages waiting addressed => exact serves.offer current stages waiting
  | finish current stages => exact serves.finish current stages
  | @rotate time =>
    obtain rfl := timed time rfl
    exact serves.other (fun _ marks => marks.rotateAll) rfl Iff.rfl rfl
  | _ => exact serves

variable (shared ref userID route opened) in
/-- All that is known of a node under the clock. -/
structure Accounted (state : ℤ × DispatchNode) : Prop where
  serves : Serves shared ref userID route opened state.1 state.2.dedup state.2.calls state.2.started state.2.offered
  known : Known shared state.2.started state.2.answered
  recorded : Recorded state.2.dedup state.2.calls state.2.started

theorem Accounted.stepped {state after : ℤ × DispatchNode} (accounted : Accounted shared ref userID route opened state)
    (taken : ((dispatchMachine cfg).clocked DispatchEvent.time).step state step = some after)
    (within : Within shared opened step) {addressed : List DispatchRoute} (member : route ∈ addressed)
    (stays : Stays shared ref userID route state.2 step) (whole : ListsWhole shared addressed state.2 step) :
    Accounted shared ref userID route opened after := by
  obtain ⟨clock, node⟩ := state
  obtain ⟨now, next⟩ := after
  obtain ⟨serves, known, recorded⟩ := accounted
  obtain ⟨taken, timing⟩ := Machine.clocked_step taken
  have transition := transition_step taken
  have order : clock ≤ now := by
    rcases timing with ⟨_, rfl⟩ | ⟨_, order⟩
    · exact le_rfl
    · exact order
  have timed : ∀ time ∈ step.time, time = now := by
    intro time read
    rcases timing with ⟨timeless, _⟩ | ⟨known, _⟩
    · cases timeless.symm.trans read
    · exact (Option.some.inj (known.symm.trans read)).symm
  refine ⟨?_, known.transition recorded within transition, recorded.transition transition⟩
  exact (serves.advance order).transition known recorded within timed member stays whole transition

end Serving

def memberJoined : EventEnvelope where
  type := "guild.member.joined"
  routing := some { userID := 1001 }
  idempotencyKey := 8

end Cordis.Session
