import Cordis.Session.CallStages

/-! # What a guild event does to a visibility entry

A guild event that concerns a user's access has a stage that leads to an invalidation of the user's entry
at the event's revision, or to its removal. Until then the call owes it, whatever else the node does
between the steps of the call; so the call is not over before some state is reached in which the entry is
gone or reflects the revision.
-/

namespace Cordis.Session

open Pool Machine List Machine

/-- The user has no entry for the guild, or the entry is at the revision: with its snapshot, or with the
revision it waits for. -/
def ReflectsRevision (users : VisibilityUsers) (userID guildID revision : ℤ) : Prop :=
  ∀ entry ∈ entryFor users userID guildID,
    (∀ snapshot ∈ entry.snapshot, revision ≤ snapshot.accessRevision) ∧
      (entry.snapshot = none → revision ≤ entry.requiredRevision)

namespace Stage

/-- The stage leads to the removal of the user's entry. -/
def Removes (userID : ℤ) : Stage → Prop
  | .detachGuild => True
  | .clear user => user = userID
  | _ => False

/-- The stage leads to an invalidation of the user's entry. -/
def Invalidates (userID : ℤ) : Stage → Prop
  | .attachGuildUser user | .invalidate user => user = userID
  | .invalidateGuild user => user ≤ 0 ∨ user = userID
  | _ => False

/-- The stage brings the user's entry to the revision, given that of its event. -/
def Settles (userID revision accessRevision : ℤ) (stage : Stage) : Prop :=
  stage.Removes userID ∨ stage.Invalidates userID ∧ 0 < revision ∧ revision ≤ accessRevision

end Stage

variable {users : VisibilityUsers} {userID guildID revision : ℤ}

theorem reflectsRevision_remove (users : VisibilityUsers) (userID guildID revision : ℤ) :
    ReflectsRevision (removeVisibilityGuild users userID guildID) userID guildID revision := by
  intro entry held
  rw [entryFor_remove] at held
  cases held

variable {accessRevision : ℤ}

/-- An entry that is invalidated at a revision is at that revision, or was already. -/
theorem reflects_invalidateEntry {entry : VisibilityEntry} (positive : 0 < revision)
    (newer : revision ≤ accessRevision) :
    (∀ snapshot ∈ (invalidateEntry entry accessRevision).1.snapshot, revision ≤ snapshot.accessRevision) ∧
      ((invalidateEntry entry accessRevision).1.snapshot = none →
        revision ≤ (invalidateEntry entry accessRevision).1.requiredRevision) := by
  unfold invalidateEntry
  rw [if_pos (by omega)]
  split_ifs with fresh waiting
  · obtain ⟨stored, held, enough⟩ := fresh
    rw [Option.mem_def] at held
    simp only [held, Option.mem_some_iff, forall_eq', reduceCtorEq, false_implies, and_true]
    omega
  · refine ⟨fun snapshot held => ?_, fun _ => newer.trans waiting.1⟩
    rw [waiting.2] at held
    cases held
  · exact ⟨fun snapshot held => (by cases held), fun _ => newer.trans (le_max_right ..)⟩

theorem reflectsRevision_invalidate (users : VisibilityUsers) (userID guildID : ℤ)
    (positive : 0 < revision) (newer : revision ≤ accessRevision) :
    ReflectsRevision (invalidateVisibilityGuild users userID guildID accessRevision).1 userID guildID revision := by
  intro entry held
  cases known : users userID with
  | none => simp [invalidateVisibilityGuild, known, entryFor] at held
  | some state =>
    rw [entryFor_invalidate known] at held
    cases held
    exact reflects_invalidateEntry positive newer

/-- The call has a stage left that brings the user's entry to the revision. It makes no watermark check,
which could end it early. -/
structure DispatchCall.Owes (call : DispatchCall) (userID revision : ℤ) : Prop where
  plain : ∀ key sequence, Stage.accept key sequence ∉ call.stages
  owed : ∃ stage ∈ call.stages, stage.Settles userID revision call.routing.accessRevision

namespace DispatchNode

variable {cfg : NodeConfig} {node next : DispatchNode} {event : DispatchEvent} {id : ℕ} {call : DispatchCall}

/-- Each time the call lists sessions, the user has one among them. -/
def ListsUser (id : ℕ) (userID : ℤ) (node : DispatchNode) : DispatchEvent → Prop
  | .list call order => call = id → ∃ ref ∈ order, node.reg.userOf ref = userID
  | _ => True

instance (id : ℕ) (userID : ℤ) (node : DispatchNode) (event : DispatchEvent) :
    Decidable (node.ListsUser id userID event) := by
  cases event <;> unfold ListsUser <;> infer_instance

/-- The call still owes the entry, or the entry reflects the revision. -/
def OwesOrReflects (id : ℕ) (guildID userID revision : ℤ) (node : DispatchNode) : Prop :=
  (∃ call, node.calls id = some call ∧ call.guildID = guildID ∧ call.Owes userID revision) ∨
    ReflectsRevision node.users userID guildID revision

theorem OwesOrReflects.of_call {moved : DispatchCall} (calls : next.calls id = some moved) (same : SameCall call moved)
    (here : call.guildID = guildID) (owes : moved.Owes userID revision) :
    next.OwesOrReflects id guildID userID revision := by
  refine .inl ⟨moved, calls, ?_, owes⟩
  rw [← here, DispatchCall.guildID, DispatchCall.guildID, same.route]

variable {stage : Stage} {rest : List Stage} {order : List SessionRef} {set : Finset SessionRef} {ref : SessionRef}

theorem settles_expand {reg : Registry} (lists : call.lists reg stage = some set)
    (settles : stage.Settles userID revision accessRevision) (listed : ref ∈ order)
    (user : reg.userOf ref = userID) :
    ∃ made ∈ call.expand reg order stage, made.Settles userID revision accessRevision := by
  have found : userID ∈ reg.usersOf order := by
    rw [Registry.usersOf, mem_dedup]
    exact mem_map.mpr ⟨ref, listed, user⟩
  rcases settles with removes | ⟨invalidates, fits⟩
  · cases stage with
    | detachGuild =>
      refine ⟨.clear userID, ?_, .inl rfl⟩
      exact mem_append_right _ (mem_cons_of_mem _ (mem_map.mpr ⟨userID, found, rfl⟩))
    | clear => cases lists
    | _ => cases removes
  · refine ⟨.invalidate userID, ?_, .inr ⟨rfl, fits⟩⟩
    cases stage with
    | attachGuildUser user =>
      cases invalidates
      refine mem_append_right _ ?_
      rw [if_neg (ne_nil_of_mem listed)]
      exact mem_singleton_self _
    | invalidateGuild user =>
      refine mem_map.mpr ⟨userID, mem_filter.mpr ⟨found, ?_⟩, rfl⟩
      exact decide_eq_true (Or.imp_right Eq.symm invalidates)
    | invalidate => cases lists
    | _ => cases invalidates

theorem Owes.list (owes : call.Owes userID revision) (stages : call.stages = stage :: rest)
    (lists : call.lists node.reg stage = some set) (listed : ref ∈ order)
    (user : node.reg.userOf ref = userID) :
    DispatchCall.Owes { call with stages := call.expand node.reg order stage ++ rest } userID revision := by
  have ⟨plain, made, member, settles⟩ := owes
  rw [stages] at plain member
  constructor
  · intro key sequence member
    rcases mem_append.mp member with new | old
    · cases (expand_stage new).1
    · exact plain key sequence (mem_cons_of_mem _ old)
  · rcases mem_cons.mp member with rfl | later
    · obtain ⟨next, new, settles⟩ := settles_expand lists settles listed user
      exact ⟨next, mem_append_left _ new, settles⟩
    · exact ⟨made, mem_append_right _ later, settles⟩

/-- A stage other than the watermark check goes on with the rest of the call. -/
theorem runStage_rest {now : ℤ} (other : ∀ key sequence, stage ≠ .accept key sequence)
    (ran : node.runStage id call rest now stage = some next) :
    ∃ moved, next.calls id = some moved ∧ SameCall call moved ∧ moved.stages = rest := by
  cases stage with
  | accept key sequence => exact absurd rfl (other key sequence)
  | deliver gate jobs queue =>
    obtain ⟨rfl, rfl⟩ := runStage_deliver ran
    cases ran
    exact ⟨_, set_self .., ⟨rfl, rfl, rfl, rfl⟩, rfl⟩
  | forget | join | index | invalidate | view | leave | unindex | clearRemoved | dropIndex | clear =>
    cases ran
    exact ⟨_, set_self .., ⟨rfl, rfl, rfl, rfl⟩, rfl⟩
  | _ => cases ran

theorem Owes.run {now : ℤ} (owes : call.Owes userID revision)
    (here : call.guildID = guildID) (stages : call.stages = stage :: rest)
    (ran : node.runStage id call rest now stage = some next) : next.OwesOrReflects id guildID userID revision := by
  have ⟨plain, made, member, settles⟩ := owes
  rw [stages] at plain member
  have other (key : WatermarkKey) (sequence : ℤ) : stage ≠ .accept key sequence := by
    rintro rfl
    exact plain key sequence mem_cons_self
  rcases mem_cons.mp member with rfl | later
  · right
    rcases settles with removes | ⟨invalidates, positive, newer⟩
    · cases made with
      | clear user =>
        cases removes
        cases ran
        rw [← here]
        exact reflectsRevision_remove _ _ _ _
      | detachGuild => cases ran
      | _ => cases removes
    · cases made with
      | invalidate user =>
        cases invalidates
        cases ran
        rw [← here]
        exact reflectsRevision_invalidate _ _ _ positive newer
      | attachGuildUser | invalidateGuild => cases ran
      | _ => cases invalidates
  · obtain ⟨moved, calls, same, left⟩ := runStage_rest other ran
    refine .of_call calls same here ⟨fun key sequence => ?_, made, ?_, ?_⟩
    · rw [left]
      exact fun member => plain key sequence (mem_cons_of_mem _ member)
    · rwa [left]
    · rwa [DispatchCall.routing, same.event]

/-- The delivery of the event is neither the stage that is owed nor a watermark check. -/
theorem Owes.deliver {gate gate' : Gate} {jobs jobs' : List (ℤ × List SessionRef)} {queue queue' : List Offer}
    (owes : call.Owes userID revision) (stages : call.stages = .deliver gate jobs queue :: rest) :
    DispatchCall.Owes { call with stages := .deliver gate' jobs' queue' :: rest } userID revision := by
  have ⟨plain, made, member, settles⟩ := owes
  rw [stages] at plain member
  constructor
  · intro key sequence member
    rcases mem_cons.mp member with new | old
    · cases new
    · exact plain key sequence (mem_cons_of_mem _ old)
  · rcases mem_cons.mp member with rfl | later
    · rcases settles with removes | ⟨invalidates, _⟩
      · cases removes
      · cases invalidates
    · exact ⟨made, mem_cons_of_mem _ later, settles⟩

/-- One step: a call that owes the entry goes on owing it or brings it to the revision. -/
theorem owesOrReflects_step (current : node.calls id = some call) (here : call.guildID = guildID)
    (owes : call.Owes userID revision) (listed : node.ListsUser id userID event)
    (step : (dispatchMachine cfg).step node event = some next) : next.OwesOrReflects id guildID userID revision := by
  have transition := transition_step step
  have untouched {calls : Pool ℕ DispatchCall} (same : calls id = node.calls id) (kept : next.calls = calls) :
      next.OwesOrReflects id guildID userID revision :=
    .inl ⟨call, by rw [kept, same, current], here, owes⟩
  cases transition with
  | commit | load | addSession | retain | ready | fail | unbind | unregister | release | install | rotate | cleanup
  | touch | discard => exact untouched rfl rfl
  | @dispatch other route envelope revision now free =>
    obtain ⟨_, _, _, _, calls, made, which⟩ := request_eq node other route envelope revision now
    rw [made] at untouched ⊢
    suffices same : calls id = node.calls id from untouched same rfl
    rcases which with rfl | rfl
    · rfl
    · refine set_of_ne _ ?_ _
      rintro rfl
      rw [current] at free
      cases free
  | @list other order called stage rest set calling stages lists all =>
    obtain ⟨_, _, made, _⟩ := list_eq other rest order lists
    rw [made] at untouched ⊢
    by_cases same : other = id
    · subst same
      cases current.symm.trans calling
      obtain ⟨ref, member, user⟩ := listed rfl
      exact .of_call (set_self ..) ⟨rfl, rfl, rfl, rfl⟩ here (Owes.list owes stages lists member user)
    · exact untouched (set_of_ne _ (Ne.symm same) _) rfl
  | @run other now called stage rest _ calling stages ran =>
    by_cases same : other = id
    · subst same
      cases current.symm.trans calling
      exact Owes.run owes here stages ran
    · obtain ⟨_, _, _, _, _, _, _, rfl, _⟩ := runStage_eq_some ran
      exact untouched (set_of_ne _ (Ne.symm same) _) rfl
  | @check other user visibility now called gate jobs queue rest refs _ calling stages job checked =>
    obtain ⟨_, _, _, offers, rfl, _⟩ := checkUser_eq_some checked
    by_cases same : other = id
    · subst same
      cases current.symm.trans calling
      exact .of_call (set_self ..) ⟨rfl, rfl, rfl, rfl⟩ here (Owes.deliver owes stages)
    · exact untouched (set_of_ne _ (Ne.symm same) _) rfl
  | @offer other ref moment called gate jobs queue rest item calling stages =>
    by_cases same : other = id
    · subst same
      cases current.symm.trans calling
      exact .of_call (set_self ..) ⟨rfl, rfl, rfl, rfl⟩ here (Owes.deliver owes stages)
    · exact untouched (set_of_ne _ (Ne.symm same) _) rfl
  | @finish other called calling stages =>
    by_cases same : other = id
    · subst same
      cases current.symm.trans calling
      obtain ⟨_, _, member, _⟩ := owes
      rw [stages] at member
      cases member
    · exact untouched (drop_of_ne _ (Ne.symm same)) rfl

/-- A call that owes the entry does not end before the entry has reflected the revision. -/
theorem reflects_before_end {final : DispatchNode} {events : List DispatchEvent} (current : node.calls id = some call)
    (here : call.guildID = guildID) (owes : call.Owes userID revision)
    (run : (dispatchMachine cfg).run node events = some final)
    (listed : (dispatchMachine cfg).Along (DispatchNode.ListsUser id userID) node events) (ended : final.calls id = none) :
    ∃ before rest middle, events = before ++ rest ∧ (dispatchMachine cfg).run node before = some middle ∧
      ReflectsRevision middle.users userID guildID revision := by
  induction events generalizing node call with
  | nil =>
    cases run
    rw [current] at ended
    cases ended
  | cons event events ih =>
    obtain ⟨next, step, rest⟩ := run_cons_eq_some.mp run
    obtain ⟨lists, listed⟩ := (along_cons step).mp listed
    rcases owesOrReflects_step current here owes lists step with ⟨moved, calls, here', owes'⟩ | reflects
    · obtain ⟨before, later, middle, rfl, ran, reflects⟩ := ih calls here' owes' rest listed
      exact ⟨event :: before, later, middle, rfl, run_cons_eq_some.mpr ⟨next, step, ran⟩, reflects⟩
    · exact ⟨[event], events, next, rfl, run_cons_eq_some.mpr ⟨next, step, rfl⟩, reflects⟩

end DispatchNode

/-- No guild event has a watermark check. -/
theorem accept_notMem_guildStages (type : EventType) (routing : EventRouting) (key : WatermarkKey) (sequence : ℤ) :
    .accept key sequence ∉ guildStages type routing := by
  cases type <;> simp only [guildStages, attachStages] <;> (try split_ifs) <;> simp

/-- A guild event with a stage that settles the user's entry, handled by `DispatchGuildEvent`: the entry is
gone or at the revision before the call is over. -/
theorem reflects_of_dispatched {cfg : NodeConfig} {start final : DispatchNode} {id committed : ℕ} {now : ℤ}
    {envelope : EventEnvelope} {routing : EventRouting} {events : List DispatchEvent} {stage : Stage}
    (decoded : envelope.routing = some routing) (member : stage ∈ guildStages (EventType.ofName envelope.type) routing)
    (settles : stage.Settles userID revision routing.accessRevision)
    (new : start.IsNew (.guild guildID) envelope now)
    (run : (dispatchMachine cfg).run start (.dispatch id (.guild guildID) envelope committed now :: events) = some final)
    (listed : (dispatchMachine cfg).Along (DispatchNode.ListsUser id userID) start
      (.dispatch id (.guild guildID) envelope committed now :: events)) (ended : final.calls id = none) :
    ∃ before rest middle, events = before ++ rest ∧
      (dispatchMachine cfg).run start (.dispatch id (.guild guildID) envelope committed now :: before) = some middle ∧
      ReflectsRevision middle.users userID guildID revision := by
  obtain ⟨next, step, rest⟩ := run_cons_eq_some.mp run
  obtain ⟨_, listed⟩ := (along_cons step).mp listed
  have made := step
  simp only [dispatchMachine, DispatchNode.step, DispatchNode.stepDispatch] at made
  split_ifs at made
  cases made
  rw [DispatchNode.request_of_isNew new] at step rest listed
  have stages : (DispatchRoute.guild guildID).stages envelope = guildStages (EventType.ofName envelope.type) routing := by
    simp only [DispatchRoute.stages, decoded]
  have owes : DispatchCall.Owes
      { route := .guild guildID
        event := envelope
        revision := committed
        stages := (DispatchRoute.guild guildID).stages envelope
        number := start.requests } userID revision := by
    constructor
    · simp only [stages]
      exact accept_notMem_guildStages _ _
    · refine ⟨stage, by simpa only [stages] using member, ?_⟩
      simpa only [DispatchCall.routing, decoded, Option.getD_some] using settles
  obtain ⟨before, later, middle, rfl, ran, reflects⟩ :=
    DispatchNode.reflects_before_end (Pool.set_self ..) rfl owes rest listed ended
  exact ⟨before, later, middle, rfl, run_cons_eq_some.mpr ⟨_, step, ran⟩, reflects⟩

end Cordis.Session
