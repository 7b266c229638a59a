import Cordis.Session.Buffering
import Cordis.Session.CallStages

/-! # Sessions and deliveries across the steps of a node

Two things every property of deliveries needs. A session once allocated stays in the heap, keeps its
user, and keeps what it has buffered, until READY; its log only grows. And an event that a call has
listed a session for stays on its way to that session: in the queue, or in the job of the session's
user, until it is handed over or the check of the user withholds it.
-/

namespace Cordis.Session

open Registry SetIndex Pool List

/-- What every step but READY keeps of a session. -/
structure Evolves (before after : LogicalSession) : Prop where
  userID : after.userID = before.userID
  initializing : after.initializing = before.initializing
  buffers : ∀ item, Buffers before item → Buffers after item

theorem Evolves.refl (session : LogicalSession) : Evolves session session :=
  ⟨rfl, rfl, fun _ buffers => buffers⟩

theorem Registry.heap_unregister (reg : Registry) (ref : SessionRef) (guildIDs : Finset ℤ) :
    (reg.unregister ref guildIDs).heap = reg.heap := by
  unfold unregister
  split <;> rfl

variable {session : LogicalSession}

/-- A section that keeps a session going keeps the whole heap going. -/
theorem Registry.evolves_modify {reg : Registry} {ref other : SessionRef}
    {f : LogicalSession → LogicalSession} (kept : ∀ session, Evolves session (f session))
    (held : reg.heap other = some session) :
    ∃ after, (reg.modify ref f).heap other = some after ∧ Evolves session after := by
  rw [heap_modify]
  split_ifs with same
  · rw [← same, held]
    exact ⟨_, rfl, kept session⟩
  · exact ⟨session, held, .refl session⟩

/-- The jobs of the other users stay when one is taken out. -/
theorem lookup_filter_ne {Key Value : Type*} [DecidableEq Key] {key taken : Key} (different : key ≠ taken)
    (jobs : List (Key × Value)) :
    (jobs.filter fun job => decide (job.1 ≠ taken)).lookup key = jobs.lookup key := by
  induction jobs with
  | nil => rfl
  | cons job rest ih =>
    obtain ⟨first, value⟩ := job
    by_cases same : first = taken
    · have other : (key == first) = false := beq_eq_false_iff_ne.mpr fun this => different (this.trans same)
      rw [filter_cons_of_neg (by simp [same]), ih, lookup_cons, other]
    · rw [filter_cons_of_pos (by simp [same]), lookup_cons, lookup_cons, ih]

theorem lookup_map_self {Key Value : Type*} [DecidableEq Key] {key : Key} {keys : List Key}
    (member : key ∈ keys) (value : Key → Value) :
    (keys.map fun key => (key, value key)).lookup key = some (value key) := by
  induction keys with
  | nil => cases member
  | cons first rest ih =>
    by_cases same : key = first
    · subst same
      exact lookup_cons_self
    · have other : (key == first) = false := beq_eq_false_iff_ne.mpr same
      simp only [map_cons, lookup_cons, other]
      exact ih ((mem_cons.mp member).resolve_left same)

/-- The call is at its delivery, and the session is among those still to be served. -/
def DispatchCall.Addresses (call : DispatchCall) (ref : SessionRef) (userID : ℤ) : Prop :=
  ∃ gate jobs queue rest, call.stages = .deliver gate jobs queue :: rest ∧
    (call.event.offerTo ref ∈ queue ∨
      ∃ refs, jobs.lookup userID = some refs ∧ ref ∈ refs)

namespace DispatchCall.Addresses

variable {call : DispatchCall} {ref : SessionRef} {userID checked : ℤ} {gate : Gate}
  {jobs : List (ℤ × List SessionRef)} {queue offers : List Offer} {rest : List Stage} {refs : List SessionRef}
  (addresses : call.Addresses ref userID) (stages : call.stages = .deliver gate jobs queue :: rest)

include addresses stages

/-- The check of a user moves the job of that user into the queue. -/
theorem check (job : jobs.lookup checked = some refs) (passes : checked = userID → offers = call.offers refs) :
    DispatchCall.Addresses { call with
      stages := .deliver gate (jobs.filter fun job => decide (job.1 ≠ checked)) (queue ++ offers) :: rest } ref userID := by
  obtain ⟨_, _, _, _, found, queued | ⟨listed, waiting, member⟩⟩ := addresses
  · cases stages.symm.trans found
    exact ⟨_, _, _, _, rfl, .inl (mem_append_left _ queued)⟩
  · cases stages.symm.trans found
    by_cases same : checked = userID
    · subst same
      cases job.symm.trans waiting
      refine ⟨_, _, _, _, rfl, .inl (mem_append_right _ ?_)⟩
      rw [passes rfl]
      exact mem_map_of_mem member
    · refine ⟨_, _, _, _, rfl, .inr ⟨listed, ?_, member⟩⟩
      rw [lookup_filter_ne (Ne.symm same), waiting]

theorem erase {item : Offer} (different : item ≠ call.event.offerTo ref) :
    DispatchCall.Addresses { call with stages := .deliver gate jobs (queue.erase item) :: rest } ref userID := by
  obtain ⟨_, _, _, _, found, waiting⟩ := addresses
  cases stages.symm.trans found
  exact ⟨_, _, _, _, rfl, waiting.imp_left (mem_erase_of_ne different.symm).mpr⟩

/-- A delivery that is over addresses nobody. -/
theorem not_finished : ¬ (jobs = [] ∧ queue = []) := by
  rintro ⟨rfl, rfl⟩
  obtain ⟨_, _, _, _, found, queued | ⟨_, job, _⟩⟩ := addresses
  · cases stages.symm.trans found
    cases queued
  · cases stages.symm.trans found
    cases job

end DispatchCall.Addresses

namespace DispatchNode

variable {cfg : NodeConfig} {node next : DispatchNode} {event : DispatchEvent}

/-- What is recorded stays recorded. -/
structure Grows (node next : DispatchNode) : Prop where
  frames : ∀ ref, ∃ more, next.frames ref = node.frames ref ++ more
  detached : next.detached = node.detached ∨ ∃ entry, next.detached = entry :: node.detached
  withheld : node.withheld ⊆ next.withheld
  discarded : node.discarded ⊆ next.discarded

/-- The user index agrees with the registered sessions in every state. -/
theorem usersExact_transition (exact : node.reg.UsersExact) (transition : node.Transition cfg event next) :
    next.reg.UsersExact := by
  have modified : ∀ ref ran, (node.onSession cfg ref ran).reg.UsersExact := fun ref ran =>
    exact.modify ref (fun session => (sameIdentity_step cfg session ran).id)
      fun session => (sameIdentity_step cfg session ran).userID
  have dispatching := dispatching_transition transition
  cases transition with
  | dispatch | list | check =>
    rw [(dispatching (by simp [DispatchEvent.call])).reg (by simp) (by simp)]
    exact exact
  | run current stages ran =>
    obtain ⟨_, _, _, _, _, _, _, rfl, _, _, effect, _⟩ := runStage_eq_some ran
    cases effect with
    | join | leave => exact exact.modify _ (fun _ => rfl) fun _ => rfl
    | _ => exact exact
  | offer | ready | unbind | touch => exact modified _ _
  | addSession _ _ fresh unused => exact exact.addSession fresh unused
  | unregister | discard => exact exact.unregister _ _
  | _ => exact exact

section

variable (transition : node.Transition cfg event next)

include transition

/-- Sessions stay allocated and keep going; only READY changes what they wait for. -/
theorem heap_transition {ref : SessionRef} (held : node.reg.heap ref = some session) :
    (∃ after, next.reg.heap ref = some after ∧ Evolves session after) ∨
      ∃ id call payload moments, node.identifies id = some call ∧ call.phase = .retained ref ∧
        session.pendingDispatchOverflow = false ∧ next = node.greet cfg id call ref payload moments := by
  have unchanged : ∃ after, node.reg.heap ref = some after ∧ Evolves session after :=
    ⟨session, held, .refl session⟩
  have evolved : ∀ touched ran, (∀ payload moments, ran ≠ .ready payload moments) →
      ∃ after, (node.onSession cfg touched ran).reg.heap ref = some after ∧ Evolves session after := by
    refine fun touched ran ordinary => evolves_modify (fun session => ?_) held
    obtain ⟨waiting, buffer⟩ := stepSession_buffer cfg session ordinary
    exact ⟨(sameIdentity_step cfg session ran).userID, waiting, buffer⟩
  have dispatching := dispatching_transition transition
  cases transition with
  | dispatch | list | check =>
    rw [(dispatching (by simp [DispatchEvent.call])).reg (by simp) (by simp)]
    exact .inl unchanged
  | run current stages ran =>
    obtain ⟨_, _, _, _, _, _, _, rfl, _, _, effect, _⟩ := runStage_eq_some ran
    cases effect with
    | join | leave => exact .inl (evolves_modify (fun session => ⟨rfl, rfl, fun _ => id⟩) held)
    | _ => exact .inl unchanged
  | offer | unbind => exact .inl (evolved _ _ nofun)
  | touch ordinary => exact .inl (evolved _ _ ordinary)
  | addSession _ _ fresh =>
    refine .inl ⟨session, ?_, .refl session⟩
    refine heap_addSession.trans ((if_neg ?_).trans held)
    rintro rfl
    cases fresh.symm.trans held
  | @ready id payload moments touched call _ current phase present sound =>
    by_cases same : ref = touched
    · subst same
      cases present.symm.trans held
      exact .inr ⟨id, call, payload, moments, current, phase, sound, rfl⟩
    · exact .inl ⟨session, (heap_onSession ..).trans ((if_neg same).trans held), .refl session⟩
  | unregister | discard =>
    refine .inl ?_
    rw [← heap_unregister node.reg] at unchanged
    exact unchanged
  | _ => exact .inl unchanged

/-- No step changes whom a session belongs to. -/
theorem userID_transition {ref : SessionRef} (held : node.reg.heap ref = some session) :
    ∃ after, next.reg.heap ref = some after ∧ after.userID = session.userID := by
  rcases heap_transition transition held with ⟨after, present, evolves⟩ | ⟨_, _, _, _, _, _, _, rfl⟩
  · exact ⟨after, present, evolves.userID⟩
  · refine ⟨_, (heap_onSession ..).trans ((if_pos rfl).trans (congrArg _ held)), ?_⟩
    exact (sameIdentity_step cfg session _).userID

/-- No step takes anything out of the logs, and detachments are recorded one at a time. -/
theorem grows_transition : Grows node next := by
  have kept : Grows node node := ⟨fun _ => ⟨[], (append_nil _).symm⟩, .inl rfl, .refl _, .refl _⟩
  have grown : ∀ touched ran ref, ∃ more, (node.onSession cfg touched ran).frames ref = node.frames ref ++ more := by
    intro touched ran ref
    by_cases same : ref = touched
    · subst same
      exact ⟨_, Function.update_self ..⟩
    · exact ⟨[], (Function.update_of_ne same ..).trans (append_nil _).symm⟩
  cases transition with
  | @dispatch id route envelope revision now =>
    obtain ⟨_, _, _, _, _, requested, _⟩ := request_eq node id route envelope revision now
    rw [requested]
    exact { kept with }
  | @list id order call stage rest set current stages lists =>
    obtain ⟨_, _, moved, effect⟩ := list_eq id rest order lists
    rw [moved]
    cases effect with
    | detachGuildUser | detachGuild => exact { kept with detached := .inr ⟨_, rfl⟩ }
    | _ => exact { kept with }
  | run current stages ran =>
    obtain ⟨_, _, _, _, _, _, _, rfl, _⟩ := runStage_eq_some ran
    exact { kept with }
  | check current stages job checked =>
    obtain ⟨_, _, _, _, rfl, later, _⟩ := checkUser_eq_some checked
    exact { kept with withheld := later }
  | offer | ready | unbind | touch => exact { kept with frames := grown _ _ }
  | discard => exact { kept with discarded := subset_cons_self .. }
  | _ => exact { kept with }

end

/-- Where a stage of a running call comes from. A stage that takes sessions out of the guild index was
there before, or was made by a detachment that this very step records. -/
inductive Origin (node next : DispatchNode) (call : DispatchCall) : Stage → Prop
  | plain {stage} (quiet : stage.isRemoval = false) : Origin node next call stage
  | earlier {stage} (member : stage ∈ call.stages) : Origin node next call stage
  | unindex {userID ref} (listed : node.reg.users.Has userID ref)
      (recorded : next.detached = (call.guildID, some userID) :: node.detached) :
      Origin node next call (.unindex ref)
  | dropIndex (recorded : next.detached = (call.guildID, none) :: node.detached) :
      Origin node next call .dropIndex

section

variable (transition : node.Transition cfg event next)

include transition

/-- A call that runs after a step was running before it, or is the one the step has started. -/
theorem calls_transition {id : ℕ} {moved : DispatchCall} (running : next.calls id = some moved) :
    (∃ call, node.calls id = some call ∧ SameCall call moved ∧
      ∀ stage ∈ moved.stages, Origin node next call stage) ∨
    (moved.revision ≤ node.committed moved.guildID ∧ ∀ stage ∈ moved.stages, stage.isRemoval = false) := by
  have unchanged : node.calls id = some moved → ∃ call, node.calls id = some call ∧ SameCall call moved ∧
      ∀ stage ∈ moved.stages, Origin node next call stage := fun same =>
    ⟨moved, same, ⟨rfl, rfl, rfl, rfl⟩, fun _ => .earlier⟩
  -- a step that writes one call gives the stages of that call an origin and leaves the others alone
  have written : ∀ {other call changed}, node.calls other = some call →
      node.calls.set other changed id = some moved → SameCall call changed →
      (∀ stage ∈ changed.stages, Origin node next call stage) → ∃ call, node.calls id = some call ∧
        SameCall call moved ∧ ∀ stage ∈ moved.stages, Origin node next call stage := by
    intro other call changed current found same origin
    rcases of_set found with ⟨rfl, rfl⟩ | ⟨_, before⟩
    · exact ⟨call, current, same, origin⟩
    · exact unchanged before
  cases transition with
  | @dispatch started route envelope revision now free admits past =>
    obtain ⟨_, _, _, _, calls, requested, same | fresh⟩ :=
      request_eq node started route envelope revision now
    · rw [requested] at running unchanged ⊢
      exact .inl (unchanged (same ▸ running))
    · rw [requested] at running unchanged ⊢
      subst fresh
      rcases of_set running with ⟨rfl, rfl⟩ | ⟨_, before⟩
      · exact .inr ⟨past, fun stage member => ((stages_shape ..).2 stage member).1⟩
      · exact .inl (unchanged before)
  | @list other order call stage rest set current stages lists all =>
    obtain ⟨listed, detached, moved, effect⟩ := list_eq other rest order lists
    rw [moved] at running written ⊢
    refine .inl (written current running ⟨rfl, rfl, rfl, rfl⟩ fun later member => ?_)
    rcases mem_append.mp member with expanded | behind
    · cases effect with
      | @sessions gate =>
        refine .plain ?_
        cases gate <;> cases mem_singleton.mp expanded <;> rfl
      | @detachGuildUser userID =>
        cases lists
        simp only [DispatchCall.expand, mem_append, mem_flatMap, mem_cons, not_mem_nil,
          or_false] at expanded
        rcases expanded with ⟨ref, found, rfl | rfl⟩ | rfl
        · exact .plain rfl
        · refine .unindex (has_iff_mem_members.mpr ?_) rfl
          rw [← all.2]
          exact mem_toFinset.mpr found
        · exact .plain rfl
      | detachGuild =>
        simp only [DispatchCall.expand, mem_append, mem_map, mem_cons] at expanded
        rcases expanded with ⟨_, _, rfl⟩ | rfl | ⟨_, _, rfl⟩
        · exact .plain rfl
        · exact .dropIndex rfl
        · exact .plain rfl
      | other quiet => exact .plain (quiet order later expanded)
    · exact .earlier (stages ▸ mem_cons_of_mem _ behind)
  | @run other now call stage rest _ current stages ran =>
    obtain ⟨_, _, _, _, _, _, changed, rfl, same, later, _⟩ := runStage_eq_some ran
    refine .inl (written current running same fun stage member => .earlier ?_)
    exact stages ▸ mem_cons_of_mem _ (later member)
  | @check other userID visibility now call gate jobs queue rest refs _ current stages job checked =>
    obtain ⟨_, _, _, _, rfl, _⟩ := checkUser_eq_some checked
    refine .inl (written current running ⟨rfl, rfl, rfl, rfl⟩ fun stage member => ?_)
    rcases mem_cons.mp member with rfl | behind
    · exact .plain rfl
    · exact .earlier (stages ▸ mem_cons_of_mem _ behind)
  | @offer other touched moment call gate jobs queue rest item current stages =>
    refine .inl (written current running ⟨rfl, rfl, rfl, rfl⟩ fun stage member => ?_)
    rcases mem_cons.mp member with rfl | behind
    · exact .plain rfl
    · exact .earlier (stages ▸ mem_cons_of_mem _ behind)
  | finish => exact .inl (unchanged (of_drop running))
  | _ => exact .inl (unchanged running)

theorem count_detached_transition (entry : ℤ × Option ℤ) :
    node.detached.count entry ≤ next.detached.count entry := by
  rcases (grows_transition transition).detached with same | ⟨_, more⟩
  · rw [same]
  · rw [more]
    exact count_le_count_cons

/-- A session leaves the index of a guild by a detachment, or when it is removed. -/
theorem guilds_transition {guildID : ℤ} {ref : SessionRef} (indexed : node.reg.guilds.Has guildID ref) :
    next.reg.guilds.Has guildID ref ∨
      (∃ id call, node.calls id = some call ∧ call.guildID = guildID ∧
        (.unindex ref ∈ call.stages ∨ .dropIndex ∈ call.stages)) ∨
      ref ∈ next.discarded ∨
      ∃ id call guildIDs, node.identifies id = some call ∧ call.phase = .unbound ref guildIDs := by
  have modified : ∀ {touched f}, (node.reg.modify touched f).guilds.Has guildID ref := by
    intro touched f
    rw [modify_guilds]
    exact indexed
  have unregistered : ∀ {gone guildIDs}, ref ≠ gone → (node.reg.unregister gone guildIDs).guilds.Has guildID ref := by
    intro gone guildIDs different
    cases present : node.reg.live gone with
    | none => simpa only [unregister, present] using indexed
    | some session =>
      rw [guilds_unregister present]
      exact has_removeAll.mpr ⟨indexed, fun removed => different removed.2⟩
  have dispatching := dispatching_transition transition
  cases transition with
  | dispatch | list | check =>
    rw [(dispatching (by simp [DispatchEvent.call])).reg (by simp) (by simp)]
    exact .inl indexed
  | @run id now call stage rest _ current stages ran =>
    obtain ⟨_, _, _, _, _, _, _, rfl, _, _, effect, _⟩ := runStage_eq_some ran
    cases effect with
    | none => exact .inl indexed
    | join | leave => exact .inl modified
    | index => exact .inl (has_add.mpr (.inl indexed))
    | @unindex gone =>
      by_cases same : guildID = call.guildID ∧ ref = gone
      · obtain ⟨rfl, rfl⟩ := same
        exact .inr (.inl ⟨id, call, current, rfl, .inl (stages ▸ mem_cons_self)⟩)
      · exact .inl (has_remove.mpr ⟨indexed, same⟩)
    | dropIndex =>
      by_cases same : guildID = call.guildID
      · exact .inr (.inl ⟨id, call, current, same.symm, .inr (stages ▸ mem_cons_self)⟩)
      · exact .inl (has_dropKey.mpr ⟨indexed, same⟩)
  | offer | ready | unbind | touch => exact .inl modified
  | addSession => exact .inl (has_addAll.mpr (.inl indexed))
  | @unregister id gone guildIDs call current phase =>
    by_cases same : ref = gone
    · exact .inr (.inr (.inr ⟨id, call, guildIDs, current, same ▸ phase⟩))
    · exact .inl (unregistered same)
  | @discard gone =>
    by_cases same : ref = gone
    · exact .inr (.inr (.inl (same ▸ mem_cons_self)))
    · exact .inl (unregistered same)
  | _ => exact .inl indexed

end

/-- A running call has listed the session for the event and not served it yet. -/
def Delivering (node : DispatchNode) (number : ℕ) (event : EventEnvelope) (ref : SessionRef) (userID : ℤ) :
    Prop :=
  node.calls.Any fun call => call.number = number ∧ call.event = event ∧ call.Addresses ref userID

/-- The sessions of a listing are on their way. -/
theorem addresses_list (node : DispatchNode) (call : DispatchCall) (gate : Gate) {order : List SessionRef} {ref : SessionRef}
    (listed : ref ∈ order) (rest : List Stage) :
    DispatchCall.Addresses { call with stages := call.expand node.reg order (.sessions gate) ++ rest } ref
      (node.reg.userOf ref) := by
  cases gate with
  | all => exact ⟨.all, [], call.offers order, rest, rfl, .inl (mem_map_of_mem listed)⟩
  | _ =>
    have user : node.reg.userOf ref ∈ node.reg.usersOf order := mem_dedup.mpr (mem_map_of_mem listed)
    exact ⟨_, _, [], rest, rfl, .inr ⟨_, lookup_map_self user _, mem_filter.mpr ⟨listed, decide_eq_true rfl⟩⟩⟩

/-- A new listing is that of a call which has the listed sessions in front of it. -/
theorem listed_transition (transition : node.Transition cfg event next) {listing : Listing}
    (listed : listing ∈ next.listed) :
    listing ∈ node.listed ∨
      ∃ id call, id ∈ event.listing ∧ node.calls id = some call ∧
        call.stages.head?.any Stage.isSessions = true ∧
        listing = ⟨call.number, call.route, call.event, call.revision, node.detached, node.discarded⟩ ∧
        ∀ ref ∈ call.route.members node.reg,
          next.Delivering call.number call.event ref (node.reg.userOf ref) := by
  have dispatching := dispatching_transition transition
  cases transition with
  | dispatch | run | check => exact .inl ((dispatching nofun).listed rfl ▸ listed)
  | @list id order call stage rest set current stages lists all =>
    obtain ⟨_, _, moved, effect⟩ := list_eq id rest order lists
    rw [moved] at listed
    cases effect with
    | @sessions gate =>
      rcases mem_cons.mp listed with rfl | earlier
      · refine .inr ⟨id, call, rfl, current, ?_, rfl, fun ref member => ?_⟩
        · rw [stages]
          rfl
        · cases lists
          refine any_set_self _ _ ⟨rfl, rfl, addresses_list _ _ _ ?_ rest⟩
          rw [← all.2] at member
          exact mem_toFinset.mp member
      · exact .inl earlier
    | _ => exact .inl listed
  | _ => exact .inl listed

variable {number : ℕ} {envelope : EventEnvelope} {ref : SessionRef} {userID : ℤ}

/-- What is on its way stays so until it is handed over, unless the check of the user withholds it. -/
theorem Delivering.step (delivering : node.Delivering number envelope ref userID)
    (transition : node.Transition cfg event next) :
    next.Delivering number envelope ref userID ∨ (number, userID) ∈ next.withheld ∨
      ∃ id call gate jobs queue rest moment, node.calls id = some call ∧
        next = node.offer cfg id call gate jobs queue rest (envelope.offerTo ref) moment := by
  cases transition with
  | @dispatch id route envelope revision now free =>
    obtain ⟨_, _, _, _, calls, requested, same | fresh⟩ :=
      request_eq node id route envelope revision now
    · rw [requested]
      subst same
      exact .inl delivering
    · rw [requested]
      subst fresh
      exact .inl (delivering.set_of_none free _)
  | @list id order call stage rest set current stages lists =>
    obtain ⟨_, _, moved, _⟩ := list_eq _ _ order lists
    rw [moved]
    rcases delivering.set_or current _ with kept | ⟨_, _, _, _, _, _, started, _⟩
    · exact .inl kept
    · cases stages.symm.trans started
      cases lists
  | @run id now call stage rest _ current stages ran =>
    obtain ⟨_, _, _, _, _, _, moved, rfl, _⟩ := runStage_eq_some ran
    rcases delivering.set_or current moved with kept | ⟨_, _, addresses⟩
    · exact .inl kept
    · have ⟨_, _, _, _, started, _⟩ := addresses
      cases stages.symm.trans started
      exact absurd (runStage_deliver ran) (addresses.not_finished stages)
  | @check id checkedUser visibility now call gate jobs queue rest refs _ current stages job checked =>
    obtain ⟨_, _, _, offers, rfl, _, outcome, _⟩ := checkUser_eq_some checked
    rcases delivering.set_or current _ with kept | ⟨rfl, rfl, addresses⟩
    · exact .inl kept
    · rcases outcome with passes | withheld
      · exact .inl (any_set_self _ _ ⟨rfl, rfl, addresses.check stages job fun _ => passes⟩)
      · by_cases same : checkedUser = userID
        · exact .inr (.inl (same ▸ withheld))
        · exact .inl (any_set_self _ _ ⟨rfl, rfl, addresses.check stages job fun this => absurd this same⟩)
  | @offer id touched moment call gate jobs queue rest item current stages waiting addressed =>
    rcases delivering.set_or current _ with kept | ⟨rfl, rfl, addresses⟩
    · exact .inl kept
    · by_cases same : item = call.event.offerTo ref
      · subst same
        exact .inr (.inr ⟨id, call, gate, jobs, queue, rest, moment, current, rfl⟩)
      · exact .inl (any_set_self _ _ ⟨rfl, rfl, addresses.erase stages same⟩)
  | @finish id call current stages =>
    rcases delivering.drop_or current with kept | ⟨_, _, _, _, _, _, started, _⟩
    · exact .inl kept
    · cases stages.symm.trans started
  | _ => exact .inl delivering

end DispatchNode

end Cordis.Session
