import Cordis.Session.Connection
import Cordis.Session.Detachment

/-! # The steps of a node with its connections

Every step of the node is one of the transitions below, which say what becomes of the registry, of
the call, receiver or cleanup that moved, and what it had found before. Invariants of whole runs
are proved by cases on the transition and do not look into the step functions.
-/

namespace Cordis.Session

open Option

namespace ConnectionNode

variable (cfg : NodeConfig) (node : ConnectionNode) in
/-- What a step can do. Steps that only run an ordinary section of a session are one case, and so
are the ways a receiver ends; a step whose remote result matters later keeps its event. -/
inductive Transition : ConnectionEvent → ConnectionNode → Prop
  | section {event ref ran} (ordinary : SessionEvent.Ordinary ran) : Transition event (node.onSession cfg ref ran)
  | identify {event id ref session} (free : node.calls id = none) (fresh : node.reg.heap ref = none)
      (unused : node.reg.sessions session.id = none) (bound : session.binding = some 1)
      (epoch : session.bindingEpoch = 1) (alive : (session.bindings 1).done = false) :
      Transition event
        ({ node with reg := node.reg.addSession ref session }.setCall id (.initializing ref))
  | identifyFail {event id ref} (current : node.calls id = some (.initializing ref)) :
      Transition event (node.setCall id (.failing ref))
  | ready {event id ref payload moments} (current : node.calls id = some (.initializing ref)) : Transition event
        ((node.onSession cfg ref (.ready payload moments)).setCall id (.connected ref))
  | unbind {event id ref guildIDs} (current : node.calls id = some (.failing ref)) :
      Transition event ((node.onSession cfg ref .remove).setCall id (.removing ref guildIDs))
  | unregister {event id ref guildIDs} (current : node.calls id = some (.removing ref guildIDs)) :
      Transition event ({ node with reg := node.reg.unregister ref guildIDs }.endCall id)
  | lookup {event id ref request} (free : node.calls id = none) :
      Transition event (node.setCall id (.resuming ref request))
  | authenticated {event id ref request} (current : node.calls id = some (.resuming ref request)) :
      Transition event (node.setCall id (.authenticated ref request))
  | unauthenticated {event id ref request} (current : node.calls id = some (.resuming ref request)) :
      Transition event (node.endCall id)
  | rebind {id moment ref request session resumed}
      (current : node.calls id = some (.authenticated ref request))
      (held : node.reg.heap ref = some session)
      (accepted : resumeLocked cfg session request moment = .ok resumed) :
      Transition (.rebind id moment)
        ((node.onSession cfg ref (.resume request moment)).setCall id (.rebound ref resumed.bindingEpoch))
  | notResumable {event id ref request} (current : node.calls id = some (.authenticated ref request)) :
      Transition event (node.endCall id)
  | refreshOwner {id ref binding} (current : node.calls id = some (.rebound ref binding)) :
      Transition (.refreshOwner id none) (node.setCall id (.ownerRefreshed ref binding))
  | ownerFailed {id ref binding status} (current : node.calls id = some (.rebound ref binding)) :
      Transition (.refreshOwner id (some status)) (node.endCall id)
  | refreshPresence {id ref binding} (current : node.calls id = some (.ownerRefreshed ref binding)) :
      Transition (.refreshPresence id none) (node.setCall id (.connected ref))
  | presenceFailed {id ref binding status} (current : node.calls id = some (.ownerRefreshed ref binding)) :
      Transition (.refreshPresence id (some status)) (node.endCall id)
  | bindingMissing {event id ref session} (current : node.calls id = some (.connected ref))
      (held : node.reg.heap ref = some session) (missing : session.binding = none) :
      Transition event (node.endCall id)
  | readCurrent {event id ref session binding} (current : node.calls id = some (.connected ref))
      (held : node.reg.heap ref = some session) (bound : session.binding = some binding) :
      Transition event
        ((node.setCall id (.pumping ref binding)).setReceiver id (.running ref binding))
  | detach {event id ref session binding now detached}
      (current : node.calls id = some (.pumping ref binding)) (held : node.reg.heap ref = some session)
      (accepted : detachLocked session binding now = some detached) :
      Transition event
        ((node.onSession cfg ref (.detach binding now)).setCall id (.closing ref binding))
  | streamEnds {event id ref session binding} (current : node.calls id = some (.pumping ref binding))
      (held : node.reg.heap ref = some session)
      (stale : session.binding ≠ some binding ∨ (session.bindings binding).done = true) :
      Transition event (node.endCall id)
  | close {event id ref binding} (current : node.calls id = some (.closing ref binding)) :
      Transition event ((node.onSession cfg ref (.close binding)).endCall id)
  | receiverEnds {event id ref binding} (current : node.receivers id = some (.running ref binding)) :
      Transition event (node.endReceiver id)
  | receiverDetach {event id ref session binding now detached}
      (current : node.receivers id = some (.running ref binding)) (held : node.reg.heap ref = some session)
      (accepted : detachLocked session binding now = some detached) :
      Transition event
        ((node.onSession cfg ref (.detach binding now)).setReceiver id (.closing ref binding true))
  | receiverLeave {event id ref session binding now detached}
      (current : node.receivers id = some (.running ref binding)) (held : node.reg.heap ref = some session)
      (accepted : detachLocked session binding now = some detached) :
      Transition event
        (((node.onSession cfg ref (.detach binding now)).setReceiver id
          (.closing ref binding false)).doom ref)
  | receiverClose {event id ref binding} (current : node.receivers id = some (.closing ref binding true)) :
      Transition event ((node.onSession cfg ref (.close binding)).endReceiver id)
  | receiverClosed {event id ref binding} (current : node.receivers id = some (.closing ref binding false)) :
      Transition event ((node.onSession cfg ref (.close binding)).setReceiver id (.leaving ref))
  | receiverUnbind {event id ref guildIDs} (current : node.receivers id = some (.leaving ref)) : Transition event
        ((node.onSession cfg ref .remove).setReceiver id (.removing ref guildIDs))
  | receiverUnregister {event id ref guildIDs}
      (current : node.receivers id = some (.removing ref guildIDs)) :
      Transition event ({ node with reg := node.reg.unregister ref guildIDs }.endReceiver id)
  | cleanupScan {event now rest} (idle : ∀ ref, ¬ node.cleanup.Condemns ref) :
      Transition event { node with cleanup := .scanning now rest }
  | cleanupTest {event now ref rest session} (current : node.cleanup = .scanning now (ref :: rest))
      (held : node.reg.heap ref = some session) (overdue : expired cfg now session = true) :
      Transition event { node.doom ref with cleanup := .expired now ref rest }
  | cleanupUnbind {event now ref guildIDs rest} (current : node.cleanup = .expired now ref rest) : Transition event
        { node.onSession cfg ref .remove with cleanup := .removing now ref guildIDs rest }
  | cleanupUnregister {event now ref guildIDs rest}
      (current : node.cleanup = .removing now ref guildIDs rest) :
      Transition event
        { node with reg := node.reg.unregister ref guildIDs, cleanup := .scanning now rest }

variable {cfg : NodeConfig} {node next : ConnectionNode} {event : ConnectionEvent}

theorem heap_onSession (ref other : SessionRef) (ran : SessionEvent) :
    (node.onSession cfg ref ran).reg.heap other =
      if other = ref then (node.reg.heap ref).map (stepSession cfg · ran) else node.reg.heap other :=
  Registry.heap_modify _

theorem live_onSession (ref other : SessionRef) (ran : SessionEvent) :
    (node.onSession cfg ref ran).reg.live other =
      if other = ref then (node.reg.live ref).map (stepSession cfg · ran) else node.reg.live other :=
  Registry.live_modify fun session => (sameIdentity_step cfg session ran).id

theorem transition_stepIdentify (step : node.stepIdentify cfg event = some next) :
    node.Transition cfg event next := by
  cases event with simp only [stepIdentify] at step
  | identify id ref identity guilds =>
    split at step
    · next free _ =>
      split_ifs at step with unused
      cases step
      exact .identify free unused.1 unused.2 rfl rfl rfl
    · cases step
  | identifyFail id =>
    split at step <;> cases step
    exact .identifyFail (by assumption)
  | ready id payload moments =>
    split at step
    · next current =>
      obtain ⟨session, _, step⟩ := bind_eq_some_iff.mp step
      split at step <;> cases step
      · exact .ready current
      · exact .identifyFail current
    · cases step
  | unbind id =>
    split at step <;> cases step
    exact .unbind (by assumption)
  | unregister id =>
    split at step <;> cases step
    exact .unregister (by assumption)
  | _ => cases step

theorem transition_stepResume (step : node.stepResume cfg event = some next) :
    node.Transition cfg event next := by
  cases event with simp only [stepResume] at step
  | lookup id sessionID request =>
    split at step
    · next free _ =>
      obtain ⟨ref, _, rfl⟩ := map_eq_some_iff.mp step
      exact .lookup free
    · cases step
  | authenticate id response =>
    split at step
    · next current =>
      obtain ⟨session, _, step⟩ := bind_eq_some_iff.mp step
      split_ifs at step <;> cases step
      · exact .authenticated current
      · exact .unauthenticated current
    · cases step
  | rebind id moment =>
    split at step
    · next current =>
      obtain ⟨session, held, step⟩ := bind_eq_some_iff.mp step
      split at step <;> cases step
      · next accepted => exact .rebind current held accepted
      · exact .notResumable current
    · cases step
  | refreshOwner id failure =>
    split at step
    · next current =>
      split at step <;> cases step
      · exact .refreshOwner current
      · exact .ownerFailed current
    · cases step
  | refreshPresence id failure =>
    split at step
    · next current =>
      split at step <;> cases step
      · exact .refreshPresence current
      · exact .presenceFailed current
    · cases step
  | _ => cases step

theorem detachLocked_none {session : LogicalSession} {binding now : ℕ}
    (refused : detachLocked session binding now = none) : session.binding ≠ some binding := by
  unfold detachLocked at refused
  split_ifs at refused with stale
  exact stale

theorem transition_stepStream (step : node.stepStream cfg event = some next) :
    node.Transition cfg event next := by
  cases event with simp only [stepStream] at step
  | readCurrent id =>
    split at step
    · next current =>
      obtain ⟨session, held, step⟩ := bind_eq_some_iff.mp step
      split at step <;> cases step
      · next missing => exact .bindingMissing current held missing
      · next bound => exact .readCurrent current held bound
    · cases step
  | send id =>
    split at step <;> cases step
    exact .section trivial
  | detach id now =>
    split at step
    · next current =>
      obtain ⟨session, held, step⟩ := bind_eq_some_iff.mp step
      split at step <;> cases step
      · next accepted => exact .detach current held accepted
      · next refused => exact .streamEnds current held (.inl (detachLocked_none refused))
    · cases step
  | close id =>
    split at step <;> cases step
    exact .close (by assumption)
  | bindingDone id =>
    split at step
    · next current =>
      obtain ⟨session, held, step⟩ := bind_eq_some_iff.mp step
      split_ifs at step with done
      cases step
      exact .streamEnds current held (.inr done)
    · cases step
  | _ => cases step

theorem transition_stepReceiver (step : node.stepReceiver cfg event = some next) :
    node.Transition cfg event next := by
  cases event with simp only [stepReceiver] at step
  | heartbeat id sequence =>
    split at step
    · next current =>
      obtain ⟨session, _, step⟩ := bind_eq_some_iff.mp step
      split at step <;> cases step
      · exact .section trivial
      · exact .receiverEnds current
    · cases step
  | heartbeatAck id sendFirst =>
    split at step <;> cases step
    exact .section trivial
  | detachFrame id resumable now =>
    split at step
    · next current =>
      obtain ⟨session, held, step⟩ := bind_eq_some_iff.mp step
      split at step <;> cases step
      · next accepted =>
        cases resumable with
        | true => exact .receiverDetach current held accepted
        | false => exact .receiverLeave current held accepted
      · exact .receiverEnds current
    · cases step
  | receiverClose id =>
    split at step
    · next resumable current =>
      cases step
      cases resumable with
      | true => exact .receiverClose current
      | false => exact .receiverClosed current
    · cases step
  | receiverUnbind id =>
    split at step <;> cases step
    exact .receiverUnbind (by assumption)
  | receiverUnregister id =>
    split at step <;> cases step
    exact .receiverUnregister (by assumption)
  | receiverStop id =>
    split at step <;> cases step
    exact .receiverEnds (by assumption)
  | _ => cases step

theorem transition_stepServer (step : node.stepServer cfg event = some next) :
    node.Transition cfg event next := by
  cases event <;> cases step <;> exact .section trivial

theorem transition_stepCleanup (step : node.stepCleanup cfg event = some next) :
    node.Transition cfg event next := by
  cases event with simp only [stepCleanup] at step
  | cleanupScan now order =>
    split at step
    · next current =>
      split_ifs at step
      cases step
      exact .cleanupScan (by simp [current, Cleanup.Condemns])
    · next current =>
      split_ifs at step
      cases step
      exact .cleanupScan (by simp [current, Cleanup.Condemns])
    · cases step
  | cleanupTest =>
    split at step
    · next current =>
      obtain ⟨session, held, step⟩ := bind_eq_some_iff.mp step
      split_ifs at step with overdue <;> cases step
      · exact .cleanupTest current held overdue
      · exact .cleanupScan (by simp [current, Cleanup.Condemns])
    · cases step
  | cleanupUnbind =>
    split at step <;> cases step
    exact .cleanupUnbind (by assumption)
  | cleanupUnregister =>
    split at step <;> cases step
    exact .cleanupUnregister (by assumption)
  | _ => cases step

theorem transition_step (step : (connectionMachine cfg).step node event = some next) :
    node.Transition cfg event next := by
  cases event with
  | identify | identifyFail | ready | unbind | unregister => exact transition_stepIdentify step
  | lookup | authenticate | rebind | refreshOwner | refreshPresence => exact transition_stepResume step
  | readCurrent | send | detach | close | bindingDone => exact transition_stepStream step
  | heartbeat | heartbeatAck | detachFrame | receiverClose | receiverUnbind | receiverUnregister
  | receiverStop => exact transition_stepReceiver step
  | dispatch | checkpoint | drain => exact transition_stepServer step
  | cleanupScan | cleanupTest | cleanupUnbind | cleanupUnregister => exact transition_stepCleanup step

end ConnectionNode

end Cordis.Session
