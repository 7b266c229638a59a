import Cordis.Session.Replay

/-! # What the sections of a session do to its binding

Only `resume` installs a binding. Every other section keeps the current one open or takes it away,
and a section that takes it away either records when, or is part of a removal. No section changes
whom a session belongs to, and only `dispatch` and `ready` touch the buffer of events that wait for READY.
-/

namespace Cordis.Session

/-- The session is still the same one. -/
structure SameIdentity (before after : LogicalSession) : Prop where
  id : after.id = before.id
  userID : after.userID = before.userID
  guilds : after.guilds = before.guilds

/-- The current binding is kept as open as it was, or taken away with the time recorded. -/
structure KeepsOrDetaches (before after : LogicalSession) : Prop extends SameIdentity before after where
  epoch : after.bindingEpoch = before.bindingEpoch
  outcome : (after.binding = before.binding ∧ after.detachedAt = before.detachedAt) ∨
    (after.binding = none ∧ after.detachedAt ≠ none)
  alive : ∀ pointer, after.binding = some pointer →
    (after.bindings pointer).done = (before.bindings pointer).done

/-- Two sessions that agree on everything buffering depends on. -/
structure SameBuffer (before after : LogicalSession) : Prop where
  initializing : after.initializing = before.initializing
  pendingDispatches : after.pendingDispatches = before.pendingDispatches
  pendingDispatchOverflow : after.pendingDispatchOverflow = before.pendingDispatchOverflow

theorem SameBuffer.trans {before middle after : LogicalSession} (first : SameBuffer before middle)
    (second : SameBuffer middle after) : SameBuffer before after where
  initializing := second.initializing.trans first.initializing
  pendingDispatches := second.pendingDispatches.trans first.pendingDispatches
  pendingDispatchOverflow := second.pendingDispatchOverflow.trans first.pendingDispatchOverflow

namespace KeepsOrDetaches

variable {before middle after session : LogicalSession}

theorem refl (session : LogicalSession) : KeepsOrDetaches session session :=
  ⟨⟨rfl, rfl, rfl⟩, rfl, .inl ⟨rfl, rfl⟩, fun _ _ => rfl⟩

theorem trans (first : KeepsOrDetaches before middle) (second : KeepsOrDetaches middle after) :
    KeepsOrDetaches before after where
  id := second.id.trans first.id
  userID := second.userID.trans first.userID
  guilds := second.guilds.trans first.guilds
  epoch := second.epoch.trans first.epoch
  outcome := by
    rcases second.outcome with ⟨binding, detachedAt⟩ | detached
    · rw [binding, detachedAt]
      exact first.outcome
    · exact .inr detached
  alive pointer bound := by
    rcases second.outcome with ⟨binding, _⟩ | ⟨binding, _⟩
    · exact (second.alive pointer bound).trans (first.alive pointer (binding ▸ bound))
    · cases binding.symm.trans bound

/-- A section that leaves the binding, its time, and the table of bindings alone. -/
theorem of_same (identity : SameIdentity before after) (epoch : after.bindingEpoch = before.bindingEpoch)
    (binding : after.binding = before.binding) (detachedAt : after.detachedAt = before.detachedAt)
    (bindings : after.bindings = before.bindings) : KeepsOrDetaches before after :=
  ⟨identity, epoch, .inl ⟨binding, detachedAt⟩, fun _ _ => by rw [bindings]⟩

end KeepsOrDetaches

/-- What most sections do: the buffer stays too. -/
structure Leaves (before after : LogicalSession) : Prop extends KeepsOrDetaches before after, SameBuffer before after

namespace Leaves

variable {before middle after session : LogicalSession}

theorem refl (session : LogicalSession) : Leaves session session := ⟨.refl session, ⟨rfl, rfl, rfl⟩⟩

theorem trans (first : Leaves before middle) (second : Leaves middle after) : Leaves before after :=
  ⟨first.toKeepsOrDetaches.trans second.toKeepsOrDetaches, first.toSameBuffer.trans second.toSameBuffer⟩

theorem pushReplay (cfg : NodeConfig) (session : LogicalSession) (frame : ConnectResponse) :
    Leaves session (pushReplay cfg session frame) := by
  unfold Session.pushReplay
  dsimp only
  split <;> exact ⟨.of_same ⟨rfl, rfl, rfl⟩ rfl rfl rfl rfl, ⟨rfl, rfl, rfl⟩⟩

/-- Queueing a frame does not close a binding. -/
theorem setBinding (session : LogicalSession) {pointer : ℕ} {binding : Binding}
    (same : binding.done = (session.bindings pointer).done) :
    Leaves session (session.setBinding pointer binding) := by
  refine ⟨⟨⟨rfl, rfl, rfl⟩, rfl, .inl ⟨rfl, rfl⟩, fun other _ => ?_⟩, ⟨rfl, rfl, rfl⟩⟩
  rw [LogicalSession.setBinding_bindings]
  by_cases this : other = pointer
  · subst this
    rw [Function.update_self, same]
  · rw [Function.update_of_ne this]

theorem enqueue_done {binding queued : Binding} {frame : ConnectResponse} {sendFirst : Bool}
    (accepted : enqueue binding frame sendFirst = .ok queued) : queued.done = binding.done := by
  unfold enqueue at accepted
  dsimp only at accepted
  split_ifs at accepted
  cases accepted
  rfl

theorem enqueueCurrent (session : LogicalSession) (frame : ConnectResponse) (moment : Moment) :
    Leaves session (enqueueCurrent session frame moment) := by
  unfold Session.enqueueCurrent
  split
  · exact refl session
  · split
    · next queued accepted => exact setBinding session (enqueue_done accepted)
    · exact ⟨⟨⟨rfl, rfl, rfl⟩, rfl, .inr ⟨rfl, nofun⟩, nofun⟩, ⟨rfl, rfl, rfl⟩⟩

theorem appendDispatchLocked (cfg : NodeConfig) (session : LogicalSession) (eventType : String)
    (payload : Bytes) (moment : Moment) :
    Leaves session (appendDispatchLocked cfg session eventType payload moment) :=
  (pushReplay cfg session _).trans (enqueueCurrent _ _ moment)

theorem acknowledgeLocked (session : LogicalSession) (sequence : ℕ) :
    Leaves session (acknowledgeLocked session sequence) := by
  unfold Session.acknowledgeLocked
  split
  · exact refl session
  · exact ⟨.of_same ⟨rfl, rfl, rfl⟩ rfl rfl rfl rfl, ⟨rfl, rfl, rfl⟩⟩

theorem heartbeat {binding sequence : ℕ} (accepted : heartbeat session binding sequence = .ok after) :
    Leaves session after := by
  unfold Session.heartbeat at accepted
  split_ifs at accepted
  cases accepted
  exact acknowledgeLocked session sequence

theorem applyCheckpoint {gatewayID gatewayGeneration : String} {checkpoint : GatewayConnectionCheckpoint}
    (applied : applyCheckpoint session gatewayID gatewayGeneration checkpoint = some after) :
    Leaves session after := by
  unfold Session.applyCheckpoint at applied
  split at applied
  · cases applied
  · dsimp only at applied
    split_ifs at applied
    cases applied
    exact acknowledgeLocked ..

theorem offer (session : LogicalSession) (pointer : ℕ) (frame : ConnectResponse) (sendFirst : Bool) :
    Leaves session (offer session pointer frame sendFirst) := by
  unfold Session.offer
  split
  · next queued accepted => exact setBinding session (enqueue_done accepted)
  · exact refl session

theorem detachLocked {binding now : ℕ} (detached : detachLocked session binding now = some after) :
    Leaves session after := by
  unfold Session.detachLocked at detached
  split_ifs at detached
  cases detached
  exact ⟨⟨⟨rfl, rfl, rfl⟩, rfl, .inr ⟨rfl, nofun⟩, nofun⟩, ⟨rfl, rfl, rfl⟩⟩

end Leaves

namespace KeepsOrDetaches

variable {session after : LogicalSession}

theorem dispatchSession (cfg : NodeConfig) (session : LogicalSession) (eventType : String)
    (payload : Bytes) (moment : Moment) :
    KeepsOrDetaches session (dispatchSession cfg session eventType payload moment).1 := by
  unfold Session.dispatchSession
  dsimp only
  split_ifs
  · exact refl session
  · exact of_same ⟨rfl, rfl, rfl⟩ rfl rfl rfl rfl
  · exact of_same ⟨rfl, rfl, rfl⟩ rfl rfl rfl rfl
  · exact (Leaves.appendDispatchLocked ..).toKeepsOrDetaches

theorem foldl_append (cfg : NodeConfig) (moments : ℕ → Moment) (items : List (PendingDispatch × ℕ))
    (session : LogicalSession) :
    KeepsOrDetaches session (items.foldl (fun current item =>
      Session.appendDispatchLocked cfg current item.1.eventType item.1.payload (moments (item.2 + 1)))
      session) := by
  induction items generalizing session with
  | nil => exact refl session
  | cons item rest ih => exact (Leaves.appendDispatchLocked ..).toKeepsOrDetaches.trans (ih _)

theorem readyLocked {cfg : NodeConfig} {payload : Bytes} {moments : ℕ → Moment}
    (accepted : readyLocked cfg session payload moments = .ok after) : KeepsOrDetaches session after := by
  unfold Session.readyLocked at accepted
  split_ifs at accepted
  cases accepted
  have greeted := Leaves.appendDispatchLocked cfg session gatewayEventReady payload (moments 0)
  have flushed := greeted.toKeepsOrDetaches.trans (foldl_append cfg moments session.pendingDispatches.zipIdx _)
  exact flushed.trans (of_same ⟨rfl, rfl, rfl⟩ rfl rfl rfl rfl)

end KeepsOrDetaches

/-- The sections that neither install a binding nor belong to a removal nor close a binding that
has been taken away. -/
def SessionEvent.Ordinary : SessionEvent → Prop
  | .resume .. | .remove | .close .. => False
  | _ => True

/-- The ordinary sections that leave the buffer alone. -/
def SessionEvent.Quiet : SessionEvent → Prop
  | .dispatch .. | .ready .. | .resume .. | .remove | .close .. => False
  | _ => True

variable (cfg : NodeConfig) (session : LogicalSession) {event : SessionEvent}

theorem leaves_step (quiet : event.Quiet) :
    Leaves session (stepSession cfg session event) := by
  cases event with simp only [stepSession]
  | dispatch | ready | close | resume | remove => exact quiet.elim
  | heartbeat binding sequence =>
    cases accepted : heartbeat session binding sequence with
    | ok after => exact .heartbeat accepted
    | error => exact .refl session
  | heartbeatAck => exact .offer ..
  | checkpoint gatewayID gatewayGeneration checkpoint =>
    cases applied : applyCheckpoint session gatewayID gatewayGeneration checkpoint with
    | some after => exact .applyCheckpoint applied
    | none => exact .refl session
  | detach binding now =>
    cases detached : detachLocked session binding now with
    | some after => exact .detachLocked detached
    | none => exact .refl session
  | send binding => exact .setBinding session rfl
  | drain sendFirst =>
    split
    · exact .refl session
    · exact .offer ..

theorem keepsOrDetaches_step
    (ordinary : event.Ordinary) : KeepsOrDetaches session (stepSession cfg session event) := by
  cases event with
  | dispatch => exact .dispatchSession ..
  | ready payload moments =>
    simp only [stepSession]
    cases accepted : readyLocked cfg session payload moments with
    | ok after => exact .readyLocked accepted
    | error => exact .refl session
  | close | resume | remove => exact ordinary.elim
  | _ => exact Leaves.toKeepsOrDetaches (leaves_step cfg session trivial)

/-- An accepted resumption leaves the session with an open binding of a new epoch. -/
theorem resumeLocked_bound {cfg : NodeConfig} {session resumed : LogicalSession} {request : ResumeRequest}
    {moment : Moment} (accepted : resumeLocked cfg session request moment = .ok resumed) :
    SameIdentity session resumed ∧ resumed.bindingEpoch = session.bindingEpoch + 1 ∧
      resumed.binding = some (session.bindingEpoch + 1) ∧
      (resumed.bindings (session.bindingEpoch + 1)).done = false := by
  have bound := (resumed_queue cfg session request moment accepted).1
  have identity : SameIdentity session (rebindLocked cfg session request) := by
    unfold rebindLocked
    cases session.binding <;> exact ⟨rfl, rfl, rfl⟩
  have fresh : ((rebindLocked cfg session request).bindings (session.bindingEpoch + 1)).done = false := by
    rw [rebindLocked_fresh]
    rfl
  unfold resumeLocked at accepted
  split_ifs at accepted
  cases accepted
  have kept := Leaves.appendDispatchLocked cfg (rebindLocked cfg session request)
    gatewayEventResumed emptyObject moment
  exact ⟨⟨kept.id.trans identity.id, kept.userID.trans identity.userID, kept.guilds.trans identity.guilds⟩,
    kept.epoch, bound, (kept.alive _ bound).trans fresh⟩

theorem sameIdentity_step (event : SessionEvent) : SameIdentity session (stepSession cfg session event) := by
  by_cases ordinary : event.Ordinary
  · exact (keepsOrDetaches_step cfg session ordinary).toSameIdentity
  cases event with
  | resume request moment =>
    simp only [stepSession]
    cases accepted : resumeLocked cfg session request moment with
    | ok resumed => exact (resumeLocked_bound accepted).1
    | error => exact ⟨rfl, rfl, rfl⟩
  | remove => exact ⟨unbindLocked_id _, unbindLocked_userID _, unbindLocked_guilds _⟩
  | close => exact ⟨rfl, rfl, rfl⟩
  | _ => exact (ordinary trivial).elim

end Cordis.Session
