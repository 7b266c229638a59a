import Cordis.Session.Delivery
import Cordis.Session.Recorded

/-! # Events that users are served once

Profile and presence events reach a user over several routes, and a call marks each user it serves.
The sessions that a call hands the event to are those its own route lists, so the mark of a user
stands for the listed sessions only.

The standing of the event with one session is followed through a run: its user has not been marked
and a call that will check the user is under way, or the event waits for the session in the queue of
exactly one call, or it has been handed over once.
-/

namespace Cordis.Session

open Pool

/-- The integers that the code can hold. -/
def IsInt64 (value : ℤ) : Prop := -2 ^ 63 ≤ value ∧ value < 2 ^ 63
deriving Decidable

theorem IsInt64.ofInt_inj {first second : ℤ} (one : IsInt64 first) (two : IsInt64 second)
    (same : Int64.ofInt first = Int64.ofInt second) : first = second := by
  rw [← Int64.toInt_ofInt_of_le one.1 one.2, same, Int64.toInt_ofInt_of_le two.1 two.2]

/-- A profile or presence event, with the kind of the keys that mark its users. -/
structure SharedEvent where
  idempotencyKey : ℤ
  type : String
  kind : UInt8
  positive : 0 < idempotencyKey
  ranged : IsInt64 idempotencyKey
  typed : EventType.ofName type = .profileUpdated ∧ kind = routeKindProfile ∨
    EventType.ofName type = .presenceUpdated ∧ kind = routeKindPresence

variable (shared : SharedEvent)

theorem SharedEvent.keyed : Int64.ofInt shared.idempotencyKey ≠ 0 := fun zero =>
  shared.positive.ne' (shared.ranged.ofInt_inj (by decide) zero)

/-- The key that marks the user as served. -/
def SharedEvent.servedKey (userID : ℤ) : DedupKey :=
  dedupKey shared.kind (Int64.ofInt userID) (Int64.ofInt shared.idempotencyKey) shared.type

variable (envelope : EventEnvelope)

/-- The envelope carries the event; payload and stream position may differ between routes. -/
def EventEnvelope.Carries : Prop :=
  envelope.idempotencyKey = shared.idempotencyKey ∧ envelope.type = shared.type
deriving Decidable

/-- The payload is one that the calls take. -/
def EventEnvelope.Decoded : Prop :=
  ∃ routing ∈ envelope.routing, EventType.ofName envelope.type = .profileUpdated → 0 < routing.userID
deriving Decidable

variable {shared}

/-- Every call of the event lists the sessions of its route and serves their users once. -/
theorem EventEnvelope.Carries.stages {envelope : EventEnvelope} (carries : envelope.Carries shared)
    (decoded : envelope.Decoded) {route : DispatchRoute} (admits : route.Admits envelope) :
    route.stages envelope = [.sessions (.once shared.kind)] := by
  have typed := shared.typed
  rw [← carries.2] at typed
  obtain ⟨routing, present, named⟩ := decoded
  rw [Option.mem_def] at present
  cases route with
  | guild guildID =>
    rcases typed with ⟨profile, kind⟩ | ⟨presence, kind⟩
    · simp [DispatchRoute.stages, present, guildStages, profile, kind, not_le.mpr (named profile)]
    · simp [DispatchRoute.stages, present, guildStages, presence, kind]
  | guildMessage guildID channelID =>
    have message := admits.2.2.2
    rcases typed with ⟨typed, _⟩ | ⟨typed, _⟩ <;> simp [typed, EventType.isMessage] at message
  | user userID =>
    rcases typed with ⟨typed, kind⟩ | ⟨typed, kind⟩ <;>
      simp [DispatchRoute.stages, userStages, typed, kind, EventType.isMessage]

/-! ## The standing of one session -/

section Standing

variable (shared) (ref : SessionRef) (userID : ℤ) (route : DispatchRoute) (opened : ℤ)

/-- The jobs of a call that has the user's have the session in it, once, and no other has. -/
structure Fair (jobs : List (ℤ × List SessionRef)) : Prop where
  own : ∀ job ∈ jobs, job.1 = userID → job.2.count ref = 1
  others : ∀ job ∈ jobs, job.1 ≠ userID → ref ∉ job.2
  distinct : ∀ job ∈ jobs, Int64.ofInt job.1 = Int64.ofInt userID → job.1 = userID

/-- The stages a call of the event goes through. -/
inductive Course : List Stage → Prop
  | listing : Course [.sessions (.once shared.kind)]
  | delivering {jobs queue} (fair : Fair ref userID jobs) : Course [.deliver (.once shared.kind) jobs queue]
  | ended : Course []

/-- How often the event waits for the session in the queue of a call. -/
def DispatchCall.due (call : DispatchCall) : ℕ :=
  match call.stages with
  | .deliver _ _ queue :: _ => queue.count (call.event.offerTo ref)
  | _ => 0

/-- The call of the route is going to check the user. -/
def Coming (call : DispatchCall) : Prop :=
  call.route = route ∧ (call.stages = [.sessions (.once shared.kind)] ∨
    ∃ jobs queue refs, call.stages = [.deliver (.once shared.kind) jobs queue] ∧ (userID, refs) ∈ jobs)

/-- Where the event stands for the session. -/
inductive Standing (lasts : ℤ → Prop) (calls : Pool ℕ DispatchCall) (begun : Prop) : ℕ → Prop
  | waiting (free : ∀ time, ¬ lasts time) (none : calls.All fun _ call => call.due ref = 0)
      (coming : begun → calls.Any (Coming shared userID route)) : Standing lasts calls begun 0
  | queued {id call} (held : ∀ time < opened + dedupTTL, lasts time) (current : calls id = some call)
      (one : call.due ref = 1)
      (none : calls.All fun other call => other ≠ id → call.due ref = 0) :
      Standing lasts calls begun 0
  | received (held : ∀ time < opened + dedupTTL, lasts time)
      (none : calls.All fun _ call => call.due ref = 0) : Standing lasts calls begun 1

variable {shared ref userID route opened}
variable {lasts : ℤ → Prop} {calls : Pool ℕ DispatchCall} {begun : Prop} {count : ℕ} {id : ℕ} {call moved : DispatchCall}

variable (standing : Standing shared ref userID route opened lasts calls begun count)

include standing

/-- The mark is set or not, and the answer of the store tells which. -/
theorem Standing.free_or_held : (∀ time, ¬ lasts time) ∨ ∀ time < opened + dedupTTL, lasts time := by
  cases standing with
  | waiting free => exact .inl free
  | queued held => exact .inr held
  | received held => exact .inr held

/-- A call moves on without handing the event to the session. -/
theorem Standing.set (current : calls id = some call) (same : moved.due ref = call.due ref)
    (coming : (∀ time, ¬ lasts time) → Coming shared userID route call → Coming shared userID route moved) :
    Standing shared ref userID route opened lasts (calls.set id moved) begun count := by
  cases standing with
  | waiting free none arrives =>
    refine .waiting free (none.set (same.trans (none id call current))) fun started => ?_
    exact (arrives started).move current (coming free)
  | @queued holder found held running one none =>
    by_cases this : holder = id
    · subst this
      cases current.symm.trans running
      refine .queued held (set_self ..) (same.trans one) (All.set_of (absurd rfl) ?_)
      exact fun other found _ running => none other found running
    · refine .queued held ((set_of_ne _ this _).trans running) one (none.set fun differs => ?_)
      exact same.trans (none id call current differs)
  | received held none => exact .received held (none.set (same.trans (none id call current)))

/-- A call that has nothing left for the user ends. -/
theorem Standing.drop (stages : ∀ call, calls id = some call → call.stages = []) :
    Standing shared ref userID route opened lasts (calls.drop id) begun count := by
  cases standing with
  | waiting free none arrives =>
    refine .waiting free (none.drop id) fun started => ?_
    obtain ⟨other, found, running, known⟩ := arrives started
    refine ⟨other, found, (drop_of_ne _ ?_).trans running, known⟩
    rintro rfl
    obtain ⟨_, comes | ⟨_, _, _, comes, _⟩⟩ := known
    · cases (stages found running).symm.trans comes
    · cases (stages found running).symm.trans comes
  | @queued holder found held running one none =>
    have other : holder ≠ id := by
      rintro rfl
      rw [DispatchCall.due, stages found running] at one
      cases one
    exact .queued held ((drop_of_ne _ other).trans running) one (none.drop id)
  | received held none => exact .received held (none.drop id)

/-- A call of the event begins. -/
theorem Standing.start {request : DispatchRoute} (free : calls id = none) (started : call.route = request)
    (stages : call.stages = [.sessions (.once shared.kind)]) :
    Standing shared ref userID route opened lasts (calls.set id call) (route = request ∨ begun) count := by
  have empty : call.due ref = 0 := by rw [DispatchCall.due, stages]
  cases standing with
  | waiting unmarked none arrives =>
    refine .waiting unmarked (none.set empty) fun called => ?_
    rcases called with rfl | begun
    · exact any_set_self _ _ ⟨started, .inl stages⟩
    · exact (arrives begun).set_of_none free call
  | @queued holder found held running one none =>
    have other : holder ≠ id := by
      rintro rfl
      cases free.symm.trans running
    exact .queued held ((set_of_ne _ other _).trans running) one (none.set fun _ => empty)
  | received held none => exact .received held (none.set empty)

/-- The user is marked, and the event waits for the session. -/
theorem Standing.serve (free : ∀ time, ¬ lasts time) {expires : ℤ} (late : opened + dedupTTL ≤ expires)
    (current : calls id = some call) (one : moved.due ref = call.due ref + 1) :
    Standing shared ref userID route opened (fun time => time < expires) (calls.set id moved) begun count := by
  have held : ∀ time < opened + dedupTTL, time < expires := fun time early => early.trans_le late
  cases standing with
  | waiting _ none =>
    rw [none id call current] at one
    refine .queued held (set_self ..) one (All.set_of (absurd rfl) ?_)
    exact fun other found _ running => fun _ => none other found running
  | queued lasting | received lasting => exact absurd (lasting (opened + dedupTTL - 1) (by omega)) (free _)

/-- The event is handed to the session. -/
theorem Standing.hand (current : calls id = some call) (waits : 0 < call.due ref)
    (one : moved.due ref = call.due ref - 1) :
    Standing shared ref userID route opened lasts (calls.set id moved) begun (count + 1) := by
  cases standing with
  | waiting _ none | received _ none => exact absurd (none id call current) waits.ne'
  | @queued holder found held running only none =>
    have this : holder = id := by
      by_contra other
      exact absurd (none id call current (Ne.symm other)) waits.ne'
    subst this
    cases current.symm.trans running
    refine .received held (All.set_of ?_ fun other found differs running => none other found running differs)
    rw [one, only]

end Standing

end Cordis.Session
