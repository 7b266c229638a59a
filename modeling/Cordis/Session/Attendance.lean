import Cordis.Session.ConnectionSteps

/-! # Bound sessions have a Connect call

A session that nobody serves must be detached with the time recorded, or the cleanup will never
remove it. The invariant below follows who is responsible for a session: a bound session is held by
some call that will detach it, a session taken down by `removeSession` is held by the call that
removes it, and a session condemned by the cleanup or by its client is detached for good. Each lemma
is about one way the node changes: a section of one session, or a move of one call, receiver or of
the cleanup.
-/

namespace Cordis.Session

open Registry Option

variable (ref : SessionRef) (binding : ℕ)

/-- A call that will detach the session from the binding, or hand it to `removeSession`. -/
def Call.Holds : Call → Prop
  | .initializing session | .failing session | .connected session => session = ref
  | .rebound session held | .ownerRefreshed session held | .pumping session held =>
      session = ref ∧ held = binding
  | _ => False

/-- A call that is about to unregister the session. -/
def Call.Removes : Call → Prop
  | .failing session | .removing session _ => session = ref
  | _ => False

variable {call : Call}

theorem Call.Holds.session {ref : SessionRef} {binding : ℕ} (holds : call.Holds ref binding) :
    call.session = ref := by
  cases call <;> simp_all [Call.Holds, Call.session]

theorem Call.Removes.session {ref : SessionRef} (removes : call.Removes ref) :
    call.session = ref := by
  cases call <;> simp_all [Call.Removes, Call.session]

/-- A receiver that is about to close the binding it has taken from the session. -/
def Receiver.Closes : Receiver → Prop
  | .closing session taken _ => session = ref ∧ taken = binding
  | _ => False

/-- A receiver whose client has left for good. -/
def Receiver.Leaves : Receiver → Prop
  | .closing session _ false | .leaving session | .removing session _ => session = ref
  | _ => False

/-- Detached with the time recorded. -/
def Released (session : LogicalSession) : Prop :=
  session.binding = none ∧ session.detachedAt ≠ none

/-- The binding is not the current one and never will be. -/
def Past (session : LogicalSession) : Prop :=
  session.binding ≠ some binding ∧ binding ≤ session.bindingEpoch

namespace ConnectionNode

variable {cfg : NodeConfig} {node next : ConnectionNode} {event : ConnectionEvent}

structure Attended (node : ConnectionNode) : Prop where
  opened : ∀ ref session binding, node.reg.heap ref = some session → session.binding = some binding →
    (session.bindings binding).done = false ∧ binding ≤ session.bindingEpoch
  held : ∀ ref session binding, node.reg.heap ref = some session → session.binding = some binding →
    node.calls.Any (Call.Holds ref binding)
  detached : ∀ ref session, node.reg.live ref = some session → session.binding = none →
    session.detachedAt ≠ none ∨ node.calls.Any (Call.Removes ref)
  callCloses : node.calls.All fun _ call => ∀ ref binding, call = .closing ref binding →
    ∃ session, node.reg.heap ref = some session ∧ Past binding session
  receiverCloses : node.receivers.All fun _ receiver => ∀ ref binding, receiver.Closes ref binding →
    ∃ session, node.reg.heap ref = some session ∧ Past binding session
  receiverLeaves : node.receivers.All fun _ receiver => ∀ ref, receiver.Leaves ref →
    ref ∈ node.doomed ∧ ∃ session, node.reg.heap ref = some session ∧ Released session
  condemned : ∀ ref, node.cleanup.Condemns ref →
    ref ∈ node.doomed ∧ ∃ session, node.reg.heap ref = some session ∧ Released session

/-- What the invariant asks of a section of one session. -/
structure Permits (node : ConnectionNode) (ref : SessionRef) (before after : LogicalSession) : Prop where
  opened : ∀ binding, after.binding = some binding →
    (after.bindings binding).done = false ∧ binding ≤ after.bindingEpoch
  held : ∀ binding, after.binding = some binding →
    before.binding = some binding ∨ node.calls.Any (Call.Holds ref binding)
  detached : after.binding = none → after.detachedAt ≠ none ∨ node.calls.Any (Call.Removes ref) ∨
    (before.binding = none ∧ after.detachedAt = before.detachedAt)
  past : ∀ binding, Past binding before → Past binding after
  released : ref ∈ node.doomed → Released before → Released after

namespace Attended

variable {id : ℕ} {ref : SessionRef} {session : LogicalSession} {ran : SessionEvent}

/-- What is known of the session of a pool member is known after a section, of this session or of
another one. -/
theorem exists_onSession {known : LogicalSession → Prop} {other : SessionRef}
    (present : ∃ session, node.reg.heap other = some session ∧ known session)
    (kept : ∀ session, node.reg.heap ref = some session → other = ref → known session →
      known (stepSession cfg session ran)) :
    ∃ session, (node.onSession cfg ref ran).reg.heap other = some session ∧ known session := by
  obtain ⟨session, present, knows⟩ := present
  rw [heap_onSession]
  split_ifs with same
  · subst same
    exact ⟨_, by rw [present, map_some], kept session present rfl knows⟩
  · exact ⟨session, present, knows⟩

variable (attended : node.Attended)

include attended

theorem onSession (permits : ∀ session, node.reg.heap ref = some session →
      node.Permits ref session (stepSession cfg session ran)) : (node.onSession cfg ref ran).Attended where
  opened other session binding present bound := by
    rw [heap_onSession] at present
    split_ifs at present
    · obtain ⟨before, held, rfl⟩ := map_eq_some_iff.mp present
      exact (permits before held).opened binding bound
    · exact attended.opened other session binding present bound
  held other session binding present bound := by
    rw [heap_onSession] at present
    split_ifs at present with same
    · subst same
      obtain ⟨before, held, rfl⟩ := map_eq_some_iff.mp present
      rcases (permits before held).held binding bound with unchanged | holds
      · exact attended.held _ before binding held unchanged
      · exact holds
    · exact attended.held other session binding present bound
  detached other session live unbound := by
    rw [live_onSession] at live
    split_ifs at live with same
    · subst same
      obtain ⟨before, registered, rfl⟩ := map_eq_some_iff.mp live
      rcases (permits before (live_eq_some.mp registered).1).detached unbound with
        recorded | removes | ⟨already, unchanged⟩
      · exact .inl recorded
      · exact .inr removes
      · rw [unchanged]
        exact attended.detached _ before registered already
    · exact attended.detached other session live unbound
  callCloses := attended.callCloses.mono fun _ _ _ closes other binding same =>
    exists_onSession (closes other binding same) fun before present _ =>
      (permits before present).past binding
  receiverCloses := attended.receiverCloses.mono fun _ _ _ closes other binding taken =>
    exists_onSession (closes other binding taken) fun before present _ =>
      (permits before present).past binding
  receiverLeaves := attended.receiverLeaves.mono fun _ _ _ leaves other leaving =>
    ⟨(leaves other leaving).1, exists_onSession (leaves other leaving).2 fun before present same =>
      (permits before present).released (same ▸ (leaves other leaving).1)⟩
  condemned other condemns :=
    ⟨(attended.condemned other condemns).1,
      exists_onSession (attended.condemned other condemns).2 fun before present same =>
        (permits before present).released (same ▸ (attended.condemned other condemns).1)⟩

theorem permits_ordinary (ordinary : ran.Ordinary) (present : node.reg.heap ref = some session) :
    node.Permits ref session (stepSession cfg session ran) := by
  have kept := keepsOrDetaches_step cfg session ordinary
  rcases kept.outcome with ⟨binding, detachedAt⟩ | ⟨unbound, recorded⟩
  · refine ⟨fun pointer bound => ?_, fun pointer bound => .inl (binding ▸ bound),
      fun unbound => .inr (.inr ⟨binding ▸ unbound, detachedAt⟩), fun pointer past => ?_,
      fun _ released => ?_⟩
    · rw [kept.alive pointer bound, kept.epoch]
      exact attended.opened ref session pointer present (binding ▸ bound)
    · rwa [Past, binding, kept.epoch]
    · rwa [Released, binding, detachedAt]
  · refine ⟨fun pointer bound => ?_, fun pointer bound => ?_, fun _ => .inl recorded,
      fun pointer past => ?_, fun _ _ => ⟨unbound, recorded⟩⟩
    · cases unbound.symm.trans bound
    · cases unbound.symm.trans bound
    · rw [Past, unbound, kept.epoch]
      exact ⟨(some_ne_none pointer).symm, past.2⟩

theorem ordinary (ordinary : ran.Ordinary) : (node.onSession cfg ref ran).Attended :=
  attended.onSession fun _ present => attended.permits_ordinary ordinary present

/-- Closing a binding that has been taken away leaves the current one open. -/
theorem close {binding : ℕ} (taken : ∃ session, node.reg.heap ref = some session ∧ Past binding session) :
    (node.onSession cfg ref (.close binding)).Attended := by
  refine attended.onSession fun session present => ?_
  obtain ⟨found, held, past⟩ := taken
  cases held.symm.trans present
  refine ⟨fun pointer bound => ?_, fun _ bound => .inl bound, fun unbound => .inr (.inr ⟨unbound, rfl⟩),
    fun _ past => past, fun _ released => released⟩
  have other : pointer ≠ binding := by
    rintro rfl
    exact past.1 bound
  simp only [stepSession, LogicalSession.closeBinding, LogicalSession.setBinding_bindings,
    Function.update_of_ne other]
  exact attended.opened ref session pointer present bound

/-- `removeSession` unbinds a session that is detached already, or one that the caller is about to
unregister. -/
theorem remove (excused : ∀ session, node.reg.heap ref = some session →
      Released session ∨ node.calls.Any (Call.Removes ref)) : (node.onSession cfg ref .remove).Attended := by
  refine attended.onSession fun session present => ?_
  have unbound := unbindLocked_binding session
  have epoch : (unbindLocked session).bindingEpoch = session.bindingEpoch := by
    unfold unbindLocked
    split <;> rfl
  have detachedAt : (unbindLocked session).detachedAt = session.detachedAt := by
    unfold unbindLocked
    split <;> rfl
  refine ⟨fun _ bound => ?_, fun _ bound => ?_, fun _ => ?_, fun _ past => ?_, fun _ released => ?_⟩
  · cases unbound.symm.trans bound
  · cases unbound.symm.trans bound
  · rcases excused session present with released | removes
    · exact .inl (detachedAt.symm ▸ released.2)
    · exact .inr (.inl removes)
  · exact ⟨unbound ▸ (some_ne_none _).symm, epoch.symm ▸ past.2⟩
  · exact ⟨unbound, detachedAt.symm ▸ released.2⟩

/-- A resumption installs a binding that some call holds. -/
theorem resume {request : ResumeRequest} {moment : Moment} {resumed : LogicalSession}
    (present : node.reg.heap ref = some session) (accepted : resumeLocked cfg session request moment = .ok resumed)
    (holds : node.calls.Any (Call.Holds ref resumed.bindingEpoch)) (spared : ref ∉ node.doomed) :
    (node.onSession cfg ref (.resume request moment)).Attended := by
  refine attended.onSession fun found held => ?_
  cases present.symm.trans held
  obtain ⟨_, epoch, bound, fresh⟩ := resumeLocked_bound accepted
  have ran : stepSession cfg session (.resume request moment) = resumed := by
    simp only [stepSession, accepted]
    rfl
  rw [ran]
  refine ⟨fun pointer current => ?_, fun pointer current => .inr ?_, fun unbound => ?_, fun pointer past => ?_,
    fun doomed => (spared doomed).elim⟩
  · cases bound.symm.trans current
    exact ⟨fresh, epoch.ge⟩
  · cases bound.symm.trans current
    exact epoch ▸ holds
  · cases bound.symm.trans unbound
  · rw [Past, bound, epoch]
    have := past.2
    exact ⟨by simp only [ne_eq, some.injEq]; omega, by omega⟩

/-- A new call. -/
theorem enter (free : node.calls id = none) (closes : ∀ ref binding, call ≠ .closing ref binding) :
    (node.setCall id call).Attended :=
  { attended with
    held := fun ref session binding present bound =>
      (attended.held ref session binding present bound).set_of_none free call
    detached := fun ref session live unbound =>
      (attended.detached ref session live unbound).imp_right fun removing => removing.set_of_none free call
    callCloses := attended.callCloses.set fun ref binding same => (closes ref binding same).elim }

/-- A call moves on and stays responsible for what it was responsible for. -/
theorem move {old call : Call} (current : node.calls id = some old)
    (holds : ∀ ref session binding, node.reg.heap ref = some session → session.binding = some binding →
      old.Holds ref binding → call.Holds ref binding) (removes : ∀ ref, old.Removes ref → call.Removes ref)
    (closes : ∀ ref binding, call = .closing ref binding →
      ∃ session, node.reg.heap ref = some session ∧ Past binding session) : (node.setCall id call).Attended :=
  { attended with
    held := fun ref session binding present bound =>
      (attended.held ref session binding present bound).move current (holds ref session binding present bound)
    detached := fun ref session live unbound =>
      (attended.detached ref session live unbound).imp_right fun removing => removing.move current (removes ref)
    callCloses := attended.callCloses.set closes }

/-- A call ends that no session depends on. -/
theorem endCall {old : Call} (current : node.calls id = some old)
    (holds : ∀ ref session binding, node.reg.heap ref = some session → session.binding = some binding →
      ¬ old.Holds ref binding) (removes : ∀ ref session, node.reg.live ref = some session → ¬ old.Removes ref) :
    (node.endCall id).Attended :=
  { attended with
    held := fun ref session binding present bound =>
      ((attended.held ref session binding present bound).drop_or current).resolve_right
        (holds ref session binding present bound)
    detached := fun ref session live unbound =>
      (attended.detached ref session live unbound).imp_right fun removing =>
        (removing.drop_or current).resolve_right (removes ref session live)
    callCloses := attended.callCloses.drop id }

theorem setReceiver {receiver : Receiver} (closes : ∀ ref binding, receiver.Closes ref binding →
      ∃ session, node.reg.heap ref = some session ∧ Past binding session) (leaves : ∀ ref, receiver.Leaves ref →
      ref ∈ node.doomed ∧ ∃ session, node.reg.heap ref = some session ∧ Released session) :
    (node.setReceiver id receiver).Attended :=
  { attended with
    receiverCloses := attended.receiverCloses.set closes
    receiverLeaves := attended.receiverLeaves.set leaves }

theorem endReceiver (id : ℕ) : (node.endReceiver id).Attended :=
  { attended with
    receiverCloses := attended.receiverCloses.drop id
    receiverLeaves := attended.receiverLeaves.drop id }

theorem doom (ref : SessionRef) : (node.doom ref).Attended :=
  { attended with
    receiverLeaves := attended.receiverLeaves.mono fun _ _ _ leaves other leaving =>
      ⟨Finset.mem_insert_of_mem (leaves other leaving).1, (leaves other leaving).2⟩
    condemned := fun other condemns =>
      ⟨Finset.mem_insert_of_mem (attended.condemned other condemns).1,
        (attended.condemned other condemns).2⟩ }

theorem setCleanup {cleanup : Cleanup} (condemned : ∀ ref, cleanup.Condemns ref →
      ref ∈ node.doomed ∧ ∃ session, node.reg.heap ref = some session ∧ Released session) :
    ({ node with cleanup } : ConnectionNode).Attended :=
  { attended with condemned }

theorem unregister (ref : SessionRef) (guildIDs : Finset ℤ) :
    ({ node with reg := node.reg.unregister ref guildIDs } : ConnectionNode).Attended := by
  have heap : (node.reg.unregister ref guildIDs).heap = node.reg.heap := by
    unfold Registry.unregister
    split <;> rfl
  constructor
  case detached =>
    intro other session live
    rw [live_unregister] at live
    split_ifs at live
    exact attended.detached other session live
  all_goals simp only [heap]
  · exact attended.opened
  · exact attended.held
  · exact attended.callCloses
  · exact attended.receiverCloses
  · exact attended.receiverLeaves
  · exact attended.condemned

theorem addSession (fresh : node.reg.heap ref = none) (unused : node.reg.sessions session.id = none)
    (bound : session.binding = some 1) (epoch : session.bindingEpoch = 1)
    (alive : (session.bindings 1).done = false) (holds : node.calls.Any (Call.Holds ref 1)) :
    ({ node with reg := node.reg.addSession ref session } : ConnectionNode).Attended := by
  have kept : ∀ {other} {known : LogicalSession → Prop},
      (∃ session, node.reg.heap other = some session ∧ known session) →
      ∃ held, (node.reg.addSession ref session).heap other = some held ∧ known held := by
    rintro other known ⟨held, present, knows⟩
    refine ⟨held, ?_, knows⟩
    rw [heap_addSession, if_neg, present]
    rintro rfl
    cases fresh.symm.trans present
  constructor
  case opened =>
    intro other held binding present current
    rw [heap_addSession] at present
    split_ifs at present
    · cases present
      cases bound.symm.trans current
      exact ⟨alive, epoch.ge⟩
    · exact attended.opened other held binding present current
  case held =>
    intro other held binding present current
    rw [heap_addSession] at present
    split_ifs at present with same
    · cases present
      cases bound.symm.trans current
      exact same ▸ holds
    · exact attended.held other held binding present current
  case detached =>
    intro other held live unbound
    rw [live_addSession unused] at live
    split_ifs at live
    · cases live
      cases bound.symm.trans unbound
    · exact attended.detached other held live unbound
  case callCloses =>
    exact attended.callCloses.mono fun _ _ _ closes other binding same => kept (closes other binding same)
  case receiverCloses =>
    exact attended.receiverCloses.mono fun _ _ _ closes other binding taken =>
      kept (closes other binding taken)
  case receiverLeaves =>
    exact attended.receiverLeaves.mono fun _ _ _ leaves other leaving =>
      ⟨(leaves other leaving).1, kept (leaves other leaving).2⟩
  case condemned =>
    exact fun other condemns =>
      ⟨(attended.condemned other condemns).1, kept (attended.condemned other condemns).2⟩

end Attended

end ConnectionNode

end Cordis.Session
