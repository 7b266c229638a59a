import Cordis.Session.ConnectionSteps

/-! # A resumption against the cleanup of expired sessions

`resume` looks up its session, authenticates, and rebinds the session in three separate steps; the
cleanup finds a session expired in one section and removes it in two more. Once a session is
rebound, the cleanup finds it bound and leaves it alone. What the cleanup has decided before the
session is rebound is carried out all the same, so a resumption that rebinds a session which is
already found expired, or already removed, does not last.
-/

namespace Cordis.Session

open Pool Option

/-- The steps of one resumption and those of the cleanup. -/
def ConnectionEvent.ResumeOrCleanup (id : ℕ) : ConnectionEvent → Prop
  | .authenticate call _ | .rebind call _ | .refreshOwner call _ | .refreshPresence call _ => call = id
  | .cleanupScan .. | .cleanupTest | .cleanupUnbind | .cleanupUnregister => True
  | _ => False

instance (id : ℕ) (event : ConnectionEvent) : Decidable (event.ResumeOrCleanup id) := by
  cases event <;> dsimp only [ConnectionEvent.ResumeOrCleanup] <;> infer_instance

namespace ConnectionNode

variable {cfg : NodeConfig} {node next : ConnectionNode} {event : ConnectionEvent}

/-- The user index agrees with the registered sessions in every state. -/
theorem usersExact_step (exact : node.reg.UsersExact)
    (step : (connectionMachine cfg).step node event = some next) : next.reg.UsersExact := by
  have modified : ∀ ref ran, (node.onSession cfg ref ran).reg.UsersExact := fun ref ran =>
    exact.modify ref (fun session => (sameIdentity_step cfg session ran).id)
      fun session => (sameIdentity_step cfg session ran).userID
  cases transition_step step with
  | «section» | ready | unbind | rebind | detach | close | receiverDetach | receiverLeave | receiverClose
  | receiverClosed | receiverUnbind | cleanupUnbind => exact modified _ _
  | identify _ fresh unused => exact exact.addSession fresh unused
  | unregister | receiverUnregister | cleanupUnregister => exact exact.unregister _ _
  | _ => exact exact

theorem users_indexed {events : List ConnectionEvent} (run : (connectionMachine cfg).run {} events = some node) :
    node.reg.UsersExact :=
  Machine.invariant_run (fun _ _ _ => usersExact_step) run .empty

variable (node event)

/-- The session is registered and bound to this binding, which is open. -/
def Bound (ref : SessionRef) (binding : ℕ) : Prop :=
  ∃ session, node.reg.live ref = some session ∧ session.binding = some binding ∧
    (session.bindings binding).done = false

/-- When a resumption rebinds its session, the session is still registered and the cleanup has not
found it expired. -/
def RebindInTime : ConnectionEvent → Prop
  | .rebind id _ => ∀ call ∈ node.calls id,
      (node.reg.live call.session).isSome ∧ ¬ node.cleanup.Condemns call.session
  | _ => True

instance : Decidable (node.RebindInTime event) := by
  cases event <;> dsimp only [RebindInTime] <;> infer_instance

variable {node event}

/-- The call works on the session it has looked up, and once it has installed a binding the session
is bound to it and safe from the cleanup. -/
structure Standing (id : ℕ) (ref : SessionRef) (node : ConnectionNode) : Prop where
  holds : ∀ call, node.calls id = some call → call.session = ref
  stands : ∀ call binding, node.calls id = some call → call.installed = some binding →
    node.Bound ref binding ∧ ¬ node.cleanup.Condemns ref

namespace Standing

variable {id : ℕ} {ref other : SessionRef} {call : Call}

theorem setCall (held : call.session = ref)
    (stands : ∀ binding, call.installed = some binding → node.Bound ref binding ∧ ¬ node.cleanup.Condemns ref) :
    (node.setCall id call).Standing id ref where
  holds other present := by
    cases (set_self ..).symm.trans present
    exact held
  stands other binding present installed := by
    cases (set_self ..).symm.trans present
    exact stands binding installed

theorem endCall (node : ConnectionNode) : (node.endCall id).Standing id ref where
  holds _ present := by cases (drop_self ..).symm.trans present
  stands _ _ present := by cases (drop_self ..).symm.trans present

variable {doomed : Finset SessionRef} {reg : Registry}

/-- The cleanup moves on to something that does not concern the session. -/
theorem unrelated (standing : node.Standing id ref) {cleanup : Cleanup}
    (kept : node.reg.live ref = reg.live ref)
    (spares : ¬ cleanup.Condemns ref) :
    ({ node with reg, cleanup, doomed } : ConnectionNode).Standing id ref where
  holds := standing.holds
  stands call binding present installed := by
    obtain ⟨⟨session, live, bound⟩, _⟩ := standing.stands call binding present installed
    exact ⟨⟨session, kept ▸ live, bound⟩, spares⟩

/-- A resumption that has not installed its binding yet is not concerned by the cleanup at all. -/
theorem early (standing : node.Standing id ref) {cleanup : Cleanup} (condemned : node.cleanup.Condemns ref) :
    ({ node with reg, cleanup, doomed } : ConnectionNode).Standing id ref where
  holds := standing.holds
  stands call binding present installed :=
    ((standing.stands call binding present installed).2 condemned).elim

theorem of_lookup {sessionID : String} {request : ResumeRequest}
    (step : (connectionMachine cfg).step node (.lookup id sessionID request) = some next) :
    ∃ ref, node.reg.sessions sessionID = some ref ∧ next.Standing id ref := by
  change node.stepResume cfg (.lookup id sessionID request) = some next at step
  simp only [stepResume] at step
  split at step
  · obtain ⟨ref, found, rfl⟩ := map_eq_some_iff.mp step
    exact ⟨ref, found, setCall rfl (by rintro _ ⟨⟩)⟩
  · cases step

theorem authenticate {response : Except Status Authentication} (standing : node.Standing id ref)
    (step : (connectionMachine cfg).step node (.authenticate id response) = some next) :
    next.Standing id ref := by
  change node.stepResume cfg (.authenticate id response) = some next at step
  simp only [stepResume] at step
  split at step
  · next current =>
    obtain ⟨session, _, step⟩ := bind_eq_some_iff.mp step
    split_ifs at step <;> cases step
    · obtain rfl := standing.holds _ current
      exact setCall rfl (by rintro _ ⟨⟩)
    · exact endCall node
  · cases step

/-- The resumption that rebinds in time leaves the session registered under its new binding. -/
theorem rebind {moment : Moment} (standing : node.Standing id ref)
    (inTime : node.RebindInTime (.rebind id moment))
    (step : (connectionMachine cfg).step node (.rebind id moment) = some next) :
    next.Standing id ref := by
  change node.stepResume cfg (.rebind id moment) = some next at step
  simp only [stepResume] at step
  split at step
  · next held request current =>
    obtain ⟨session, present, step⟩ := bind_eq_some_iff.mp step
    obtain rfl : held = ref := standing.holds _ current
    split at step <;> cases step
    · next resumed accepted =>
      obtain ⟨registered, spared⟩ := inTime _ current
      obtain ⟨_, epoch, bound, opened⟩ := resumeLocked_bound accepted
      obtain ⟨found, live⟩ := isSome_iff_exists.mp registered
      obtain rfl : found = session := by
        cases (Registry.live_eq_some.mp live).1.symm.trans present
        rfl
      have rebound : (node.onSession cfg held (.resume request moment)).reg.live held = some resumed := by
        rw [live_onSession, if_pos rfl, show node.reg.live held = some found from live, map_some]
        simp only [stepSession, accepted]
        rfl
      refine ⟨fun call present => ?_, fun call binding present installed => ?_⟩
      · cases (Pool.set_self ..).symm.trans present
        rfl
      · cases (Pool.set_self ..).symm.trans present
        obtain rfl : resumed.bindingEpoch = binding := some.inj installed
        exact ⟨⟨resumed, rebound, epoch ▸ bound, epoch ▸ opened⟩, spared⟩
    · exact endCall node
  · cases step

theorem refresh (standing : node.Standing id ref)
    (refreshing : ∃ failure, event = .refreshOwner id failure ∨ event = .refreshPresence id failure)
    (step : (connectionMachine cfg).step node event = some next) : next.Standing id ref := by
  obtain ⟨failure, rfl | rfl⟩ := refreshing
  · change node.stepResume cfg (.refreshOwner id failure) = some next at step
    simp only [stepResume] at step
    split at step
    · next held binding current =>
      cases failure <;> cases step
      · obtain rfl := standing.holds _ current
        exact setCall rfl fun installed same => standing.stands _ installed current same
      · exact endCall node
    · cases step
  · change node.stepResume cfg (.refreshPresence id failure) = some next at step
    simp only [stepResume] at step
    split at step
    · next held binding current =>
      cases failure <;> cases step
      · obtain rfl := standing.holds _ current
        exact setCall rfl (by rintro _ ⟨⟩)
      · exact endCall node
    · cases step

theorem cleanup (standing : node.Standing id ref) {event : ConnectionEvent}
    (step : node.stepCleanup cfg event = some next) : next.Standing id ref := by
  cases event with simp only [stepCleanup] at step
  | cleanupScan now order =>
    split at step
    · split_ifs at step
      cases step
      exact standing.unrelated rfl not_false
    · split_ifs at step
      cases step
      exact standing.unrelated rfl not_false
    · cases step
  | cleanupTest =>
    split at step
    · next now tested rest current =>
      obtain ⟨session, present, step⟩ := bind_eq_some_iff.mp step
      split_ifs at step with overdue <;> cases step
      · refine ⟨standing.holds, fun call binding installing installed => ?_⟩
        obtain ⟨bound, _⟩ := standing.stands call binding installing installed
        refine ⟨bound, ?_⟩
        rintro rfl
        obtain ⟨found, live, bound, _⟩ := bound
        cases (Registry.live_eq_some.mp live).1.symm.trans present
        simp [expired, bound] at overdue
      · exact standing.unrelated rfl not_false
    · cases step
  | cleanupUnbind =>
    split at step
    · next now condemned rest current =>
      cases step
      by_cases same : condemned = ref
      · exact standing.early (current ▸ same)
      · refine standing.unrelated ?_ same
        rw [live_onSession, if_neg (Ne.symm same)]
    · cases step
  | cleanupUnregister =>
    split at step
    · next now condemned guildIDs rest current =>
      cases step
      by_cases same : condemned = ref
      · exact standing.early (current ▸ same)
      · refine standing.unrelated ?_ not_false
        rw [Registry.live_unregister, if_neg (Ne.symm same)]
    · cases step
  | _ => cases step

theorem step (standing : node.Standing id ref) (own : event.ResumeOrCleanup id)
    (inTime : node.RebindInTime event) (step : (connectionMachine cfg).step node event = some next) :
    next.Standing id ref := by
  cases event with
  | authenticate => cases own; exact standing.authenticate step
  | rebind => cases own; exact standing.rebind inTime step
  | refreshOwner => cases own; exact standing.refresh ⟨_, .inl rfl⟩ step
  | refreshPresence => cases own; exact standing.refresh ⟨_, .inr rfl⟩ step
  | cleanupScan | cleanupTest | cleanupUnbind | cleanupUnregister =>
    simp only [connectionMachine, ConnectionNode.step] at step
    exact standing.cleanup step
  | _ => exact own.elim

theorem run {window : List ConnectionEvent} {middle : ConnectionNode} (standing : node.Standing id ref)
    (run : (connectionMachine cfg).run node window = some middle)
    (own : ∀ event ∈ window, event.ResumeOrCleanup id)
    (inTime : (connectionMachine cfg).Along RebindInTime node window) : middle.Standing id ref :=
  Machine.invariant_along (fun _ _ _ standing guard step => standing.step guard.1 guard.2 step) run
    (inTime.and_forall own) standing

end Standing

end ConnectionNode

/-- Whatever happened before, when a resumption runs against the cleanup alone and rebinds its
session in time, the session it has looked up is registered, indexed for its user, and bound to the
open binding of the resumption when `resume` returns. -/
theorem resumed_session_registered {cfg : NodeConfig} {before window : List ConnectionEvent}
    {start opened middle final : ConnectionNode} {id : ℕ} {sessionID : String} {request : ResumeRequest}
    (reached : (connectionMachine cfg).run {} before = some start)
    (lookup : (connectionMachine cfg).step start (.lookup id sessionID request) = some opened)
    (run : (connectionMachine cfg).run opened window = some middle)
    (own : ∀ event ∈ window, event.ResumeOrCleanup id)
    (inTime : (connectionMachine cfg).Along ConnectionNode.RebindInTime opened window)
    (returned : (connectionMachine cfg).step middle (.refreshPresence id none) = some final) :
    ∃ ref binding session, start.reg.sessions sessionID = some ref ∧
      middle.calls id = some (.ownerRefreshed ref binding) ∧
      final.reg.live ref = some session ∧ final.reg.users.Has session.userID ref ∧
      session.binding = some binding ∧ (session.bindings binding).done = false := by
  have kept : ∀ node event next, Registry.UsersExact (ConnectionNode.reg node) →
      (connectionMachine cfg).step node event = some next → next.reg.UsersExact :=
    fun _ _ _ exact step => ConnectionNode.usersExact_step exact step
  have opening : (connectionMachine cfg).run start (.lookup id sessionID request :: window) = some middle :=
    Machine.run_cons_eq_some.mpr ⟨opened, lookup, run⟩
  have users := Machine.invariant_run kept opening (Machine.invariant_run kept reached .empty)
  obtain ⟨ref, found, standing⟩ := ConnectionNode.Standing.of_lookup lookup
  have standing := standing.run run own inTime
  change middle.stepResume cfg (.refreshPresence id none) = some final at returned
  simp only [ConnectionNode.stepResume] at returned
  split at returned
  · next held binding current =>
    cases returned
    obtain rfl : held = ref := standing.holds _ current
    obtain ⟨⟨session, live, bound, opened⟩, _⟩ := standing.stands _ binding current rfl
    exact ⟨held, binding, session, found, current, live, (users _ _).mpr ⟨session, live, rfl⟩, bound, opened⟩
  · cases returned

/-- A client identifies, gets READY, and loses its stream at time zero. -/
def lostStream : List ConnectionEvent :=
  [.identify 0 0 ⟨"sess-1", 1001, 2001, "conn-1", "gw-1", "gen-1"⟩ {30},
    .ready 0 emptyObject fun _ => ⟨0, true⟩, .readCurrent 0, .detach 0 0, .close 0]

theorem lostStream_indexed : ∃ node, (connectionMachine {}).run {} lostStream = some node ∧ node.reg.UsersExact :=
  Machine.exists_run rfl ConnectionNode.users_indexed

/-- The client resumes. A cleanup pass tests the session between the steps of `resume`, first before
it has expired and then when it is bound again. -/
theorem resumed_between_cleanup_tests :
    ∃ start opened middle final session,
      (connectionMachine {}).run {} (lostStream ++ [.cleanupScan 60000000000 [0]]) = some start ∧
      (connectionMachine {}).step start (.lookup 1 "sess-1" ⟨"conn-2", "gw-1", "gen-1", 0⟩) = some opened ∧
      (connectionMachine {}).run opened
        [.cleanupTest, .authenticate 1 (.ok ⟨true, 1001, 2001⟩), .cleanupScan 120000000000 [0],
          .rebind 1 ⟨120000000000, true⟩, .cleanupTest, .refreshOwner 1 none] = some middle ∧
      (connectionMachine {}).step middle (.refreshPresence 1 none) = some final ∧
      final.reg.live 0 = some session ∧ final.reg.users.Has session.userID 0 ∧
      session.binding = some 2 ∧ (session.bindings 2).done = false := by
  refine ⟨_, _, _, _, _, rfl, rfl, rfl, rfl, rfl, ?_⟩
  obtain ⟨ref, binding, session, found, current, live, indexed, bound, opened⟩ :=
    @resumed_session_registered {} (lostStream ++ [.cleanupScan 60000000000 [0]])
      [.cleanupTest, .authenticate 1 (.ok ⟨true, 1001, 2001⟩), .cleanupScan 120000000000 [0],
        .rebind 1 ⟨120000000000, true⟩, .cleanupTest, .refreshOwner 1 none]
      _ _ _ _ 1 "sess-1" ⟨"conn-2", "gw-1", "gen-1", 0⟩ rfl rfl rfl (by decide) (by decide) rfl
  cases found
  cases current
  cases live
  exact ⟨indexed, bound, opened⟩

/-- The cleanup finds the session expired, the client resumes, and the cleanup then removes the
session it has found: `resume` succeeds with a session that nobody can reach any more. -/
theorem expired_session_resumed_then_removed :
    ∃ start opened middle final session,
      (connectionMachine {}).run {}
        (lostStream ++ [.cleanupScan 120000000000 [0], .cleanupTest]) = some start ∧
      (connectionMachine {}).step start (.lookup 1 "sess-1" ⟨"conn-2", "gw-1", "gen-1", 0⟩) = some opened ∧
      (connectionMachine {}).run opened
        [.authenticate 1 (.ok ⟨true, 1001, 2001⟩), .rebind 1 ⟨120000000000, true⟩, .cleanupUnbind,
          .cleanupUnregister, .refreshOwner 1 none] = some middle ∧
      (connectionMachine {}).step middle (.refreshPresence 1 none) = some final ∧
      final.calls 1 = some (.connected 0) ∧ final.reg.heap 0 = some session ∧
      final.reg.sessions "sess-1" = none ∧ ¬ final.reg.users.Has 1001 0 ∧
      session.binding = none ∧ (session.bindings 2).done = true := by
  refine ⟨_, _, _, _, _, rfl, rfl, rfl, rfl, rfl, rfl, rfl, by decide, rfl, rfl⟩

end Cordis.Session
