import Cordis.Session.Attendance

/-! # Sessions that nobody serves expire

Two steps break the invariant of attended sessions. A resumption that has installed its binding and
then fails to refresh the owner or the presence returns without detaching. And a resumption that
rebinds a condemned session has its binding taken away by `removeSession`, which does not record the
time. Without them, a registered session without a `Connect` call is detached with the time recorded,
and the cleanup removes it when `ResumeTTL` has passed.
-/

namespace Cordis.Session

open Registry Option

/-- The call whose resumption rebinds its session in this step. -/
def ConnectionEvent.rebinding : ConnectionEvent → Option ℕ
  | .rebind id _ => some id
  | _ => none

/-- The call whose resumption fails in this step after it has rebound its session. -/
def ConnectionEvent.failing : ConnectionEvent → Option ℕ
  | .refreshOwner id (some _) | .refreshPresence id (some _) => some id
  | _ => none

namespace ConnectionNode

variable {cfg : NodeConfig} {node next : ConnectionNode} {event : ConnectionEvent}

variable (node event)

/-- A resumption does not rebind a condemned session, and does not fail while the session is bound to
the binding it has installed. -/
def ResumeCarries : Prop :=
  (∀ id ∈ event.rebinding, ∀ call ∈ node.calls id, call.session ∉ node.doomed) ∧
  ∀ id ∈ event.failing, ∀ call ∈ node.calls id, ∀ binding ∈ call.installed,
    ∀ session ∈ node.reg.heap call.session, session.binding ≠ some binding
deriving Decidable

variable {node event}

theorem detachLocked_some {session detached : LogicalSession} {binding now : ℕ}
    (accepted : detachLocked session binding now = some detached) :
    session.binding = some binding ∧ detached.bindingEpoch = session.bindingEpoch ∧ Released detached := by
  unfold detachLocked at accepted
  split_ifs at accepted with current
  cases accepted
  exact ⟨not_not.mp current, rfl, rfl, some_ne_none now⟩

section Detach

variable {ref : SessionRef} {session detached : LogicalSession} {binding now : ℕ}
  (present : node.reg.heap ref = some session) (accepted : detachLocked session binding now = some detached)

include present accepted

/-- The session after a detach, in the node after it. -/
theorem heap_detach :
    (node.onSession cfg ref (.detach binding now)).reg.heap ref = some detached := by
  rw [heap_onSession, if_pos rfl, present, map_some]
  simp [stepSession, accepted]

/-- Nobody is bound to a binding that has been taken away. -/
theorem Attended.detached_past (attended : node.Attended) :
    (node.onSession cfg ref (.detach binding now)).reg.heap ref = some detached ∧ Past binding detached := by
  obtain ⟨bound, epoch, released⟩ := detachLocked_some accepted
  refine ⟨heap_detach present accepted, ?_, ?_⟩
  · rw [released.1]
    exact (some_ne_none binding).symm
  · rw [epoch]
    exact (attended.opened ref session binding present bound).2

end Detach

variable {session : LogicalSession} {now : ℕ} {ref : SessionRef}

theorem heap_remove {binding : ℕ} (present : (node.onSession cfg ref .remove).reg.heap ref = some session) :
    session.binding ≠ some binding := by
  rw [heap_onSession, if_pos rfl] at present
  obtain ⟨before, _, rfl⟩ := map_eq_some_iff.mp present
  simp only [stepSession, unbindLocked_binding]
  exact (some_ne_none binding).symm

theorem released_of_expired (overdue : expired cfg now session = true) :
    Released session := by
  unfold expired at overdue
  obtain ⟨unbound, overdue⟩ := Bool.and_eq_true_iff.mp overdue
  refine ⟨isNone_iff_eq_none.mp unbound, fun never => ?_⟩
  simp [never] at overdue

theorem Attended.step (attended : node.Attended) (carries : node.ResumeCarries event)
    (step : (connectionMachine cfg).step node event = some next) : next.Attended := by
  cases transition_step step with
  | «section» ordinary => exact attended.ordinary ordinary
  | @identify _ id ref session free fresh unused bound epoch alive =>
    have entered : (node.setCall id (.initializing ref)).Attended :=
      attended.enter free (by rintro _ _ ⟨⟩)
    exact entered.addSession fresh unused bound epoch alive (Pool.any_set_self _ _ rfl)
  | identifyFail current | refreshOwner current =>
    exact attended.move current (fun _ _ _ _ _ holds => holds) (by rintro _ ⟨⟩) (by rintro _ _ ⟨⟩)
  | @ready _ id ref payload moments current =>
    have ready : (node.onSession cfg ref (.ready payload moments)).Attended := attended.ordinary trivial
    exact ready.move current (fun _ _ _ _ _ holds => holds) (by rintro _ ⟨⟩) (by rintro _ _ ⟨⟩)
  | @unbind _ id ref guildIDs current =>
    have unbound : (node.onSession cfg ref .remove).Attended :=
      attended.remove fun _ _ => .inr ⟨id, _, current, rfl⟩
    refine unbound.move current ?_ (fun _ removes => removes) (by rintro _ _ ⟨⟩)
    rintro other session binding present bound rfl
    exact (heap_remove present bound).elim
  | unregister current =>
    refine (attended.unregister _ _).endCall current (by rintro _ _ _ _ _ ⟨⟩) ?_
    rintro other session live rfl
    rw [live_unregister, if_pos rfl] at live
    cases live
  | lookup free => exact attended.enter free (by rintro _ _ ⟨⟩)
  | authenticated current =>
    exact attended.move current (by rintro _ _ _ _ _ ⟨⟩) (by rintro _ ⟨⟩) (by rintro _ _ ⟨⟩)
  | unauthenticated current | notResumable current =>
    exact attended.endCall current (by rintro _ _ _ _ _ ⟨⟩) (by rintro _ _ _ ⟨⟩)
  | @rebind id moment ref request session resumed current held accepted =>
    have moved : (node.setCall id (.rebound ref resumed.bindingEpoch)).Attended :=
      attended.move current (by rintro _ _ _ _ _ ⟨⟩) (by rintro _ ⟨⟩) (by rintro _ _ ⟨⟩)
    exact moved.resume held accepted (Pool.any_set_self _ _ ⟨rfl, rfl⟩) (carries.1 id rfl _ current)
  | ownerFailed current | presenceFailed current =>
    -- The call ends without detaching, so its binding must already have been taken away.
    refine attended.endCall current ?_ (by rintro _ _ _ ⟨⟩)
    rintro _ session _ present bound ⟨rfl, rfl⟩
    exact carries.2 _ rfl _ current _ rfl session present bound
  | refreshPresence current =>
    exact attended.move current (fun _ _ _ _ _ holds => holds.1) (by rintro _ ⟨⟩) (by rintro _ _ ⟨⟩)
  | bindingMissing current held missing =>
    refine attended.endCall current ?_ (by rintro _ _ _ ⟨⟩)
    rintro other session binding present bound rfl
    cases held.symm.trans present
    cases missing.symm.trans bound
  | @readCurrent _ id ref session binding current held bound =>
    have pumping : (node.setCall id (.pumping ref binding)).Attended := by
      refine attended.move current ?_ (by rintro _ ⟨⟩) (by rintro _ _ ⟨⟩)
      rintro other found pointer present pointed rfl
      cases held.symm.trans present
      cases bound.symm.trans pointed
      exact ⟨rfl, rfl⟩
    exact pumping.setReceiver (by rintro _ _ ⟨⟩) (by rintro _ ⟨⟩)
  | @detach _ id ref session binding now detached current held accepted =>
    have after : (node.onSession cfg ref (.detach binding now)).Attended := attended.ordinary trivial
    obtain ⟨present, past⟩ := attended.detached_past held accepted
    refine after.move current ?_ (by rintro _ ⟨⟩) ?_
    · rintro other left pointer heap bound ⟨rfl, rfl⟩
      cases present.symm.trans heap
      exact (past.1 bound).elim
    · rintro _ _ ⟨⟩
      exact ⟨detached, present, past⟩
  | @streamEnds _ id ref session binding current held stale =>
    -- A closed binding is never the current one, so the call no longer holds the session.
    refine attended.endCall current ?_ (by rintro _ _ _ ⟨⟩)
    rintro other found pointer present bound ⟨rfl, rfl⟩
    cases held.symm.trans present
    rcases stale with unbound | done
    · exact unbound bound
    · cases (attended.opened ref session binding held bound).1.symm.trans done
  | close current =>
    exact (attended.close (attended.callCloses _ _ current _ _ rfl)).endCall current
      (by rintro _ _ _ _ _ ⟨⟩) (by rintro _ _ _ ⟨⟩)
  | receiverEnds => exact attended.endReceiver _
  | @receiverDetach _ id ref session binding now detached current held accepted =>
    have after : (node.onSession cfg ref (.detach binding now)).Attended := attended.ordinary trivial
    refine after.setReceiver ?_ (by rintro _ ⟨⟩)
    rintro _ _ ⟨rfl, rfl⟩
    exact ⟨detached, attended.detached_past held accepted⟩
  | @receiverLeave _ id ref session binding now detached current held accepted =>
    have after : (node.onSession cfg ref (.detach binding now)).Attended := attended.ordinary trivial
    refine (after.doom ref).setReceiver ?_ ?_
    · rintro _ _ ⟨rfl, rfl⟩
      exact ⟨detached, attended.detached_past held accepted⟩
    · rintro _ rfl
      exact ⟨Finset.mem_insert_self .., detached, heap_detach held accepted, (detachLocked_some accepted).2.2⟩
  | receiverClose current =>
    exact (attended.close (attended.receiverCloses _ _ current _ _ ⟨rfl, rfl⟩)).endReceiver _
  | @receiverClosed _ id ref binding current =>
    have closed : (node.onSession cfg ref (.close binding)).Attended :=
      attended.close (attended.receiverCloses _ _ current _ _ ⟨rfl, rfl⟩)
    exact closed.setReceiver (by rintro _ _ ⟨⟩) fun other leaves =>
      closed.receiverLeaves id _ current other leaves
  | @receiverUnbind _ id ref guildIDs current =>
    -- `removeSession` finds the session still detached: only a resumption could have bound it.
    have removed : (node.onSession cfg ref .remove).Attended := by
      refine attended.remove fun session present => .inl ?_
      obtain ⟨_, found, held, released⟩ := attended.receiverLeaves id _ current ref rfl
      cases held.symm.trans present
      exact released
    exact removed.setReceiver (by rintro _ _ ⟨⟩) fun other leaves =>
      removed.receiverLeaves id _ current other leaves
  | receiverUnregister => exact (attended.unregister _ _).endReceiver _
  | cleanupScan idle => exact attended.setCleanup (by rintro _ ⟨⟩)
  | @cleanupTest _ now ref rest session current held overdue =>
    refine (attended.doom ref).setCleanup ?_
    rintro _ rfl
    exact ⟨Finset.mem_insert_self .., session, held, released_of_expired overdue⟩
  | @cleanupUnbind _ now ref guildIDs rest current =>
    have removed : (node.onSession cfg ref .remove).Attended := by
      refine attended.remove fun session present => .inl ?_
      obtain ⟨_, found, held, released⟩ := attended.condemned ref (current ▸ rfl)
      cases held.symm.trans present
      exact released
    exact removed.setCleanup fun other condemns => removed.condemned other (current ▸ condemns)
  | cleanupUnregister => exact (attended.unregister _ _).setCleanup (by rintro _ ⟨⟩)

theorem expired_of_released {detachedAt : ℕ} (unbound : session.binding = none)
    (recorded : session.detachedAt = some detachedAt) (late : detachedAt + cfg.resumeTTL ≤ now) :
    expired cfg now session = true := by
  simp only [expired, unbound, recorded, isNone_none, Bool.true_and, decide_eq_true_eq]
  omega

/-- A cleanup that comes to an expired session removes it. -/
theorem cleanup_removes {rest : List SessionRef}
    (current : node.cleanup = .scanning now (ref :: rest)) (registered : node.reg.live ref = some session)
    (overdue : expired cfg now session = true) :
    ∃ removed, (connectionMachine cfg).run node [.cleanupTest, .cleanupUnbind, .cleanupUnregister] =
        some removed ∧ removed.reg.live ref = none := by
  have present := (live_eq_some.mp registered).1
  have tested : (connectionMachine cfg).step node .cleanupTest =
      some { node.doom ref with cleanup := .expired now ref rest } := by
    simp [connectionMachine, ConnectionNode.step, stepCleanup, current, present, overdue]
  exact ⟨_, Machine.run_cons_eq_some.mpr ⟨_, tested, rfl⟩, (live_unregister _).trans (if_pos rfl)⟩

end ConnectionNode

/-- In every run in which no resumption rebinds a condemned session or fails while its own binding is
the current one, a registered session without a `Connect` call is detached, and the first cleanup
that tests it `ResumeTTL` later removes it. -/
theorem unattended_session_expires {cfg : NodeConfig} {events : List ConnectionEvent}
    {final : ConnectionNode} {ref : SessionRef} {session : LogicalSession}
    (run : (connectionMachine cfg).run {} events = some final)
    (carries : (connectionMachine cfg).Along ConnectionNode.ResumeCarries {} events)
    (registered : final.reg.live ref = some session)
    (unattended : ∀ id call, final.calls id = some call → call.session ≠ ref) :
    session.binding = none ∧ ∃ detachedAt, session.detachedAt = some detachedAt ∧
      ∀ now rest, detachedAt + cfg.resumeTTL ≤ now →
        ∃ removed, (connectionMachine cfg).run { final with cleanup := .scanning now (ref :: rest) }
            [.cleanupTest, .cleanupUnbind, .cleanupUnregister] = some removed ∧
          removed.reg.live ref = none := by
  have start : ConnectionNode.Attended {} := by
    refine ⟨?_, ?_, ?_, Pool.all_empty _, Pool.all_empty _, Pool.all_empty _, ?_⟩
    · rintro _ _ _ ⟨⟩
    · rintro _ _ _ ⟨⟩
    · rintro _ _ ⟨⟩
    · rintro _ ⟨⟩
  have attended : final.Attended :=
    Machine.invariant_along (fun _ _ _ attended carries step => attended.step carries step) run carries start
  have unbound : session.binding = none := by
    refine Option.eq_none_iff_forall_ne_some.mpr fun binding bound => ?_
    obtain ⟨id, call, current, holds⟩ :=
      attended.held ref session binding (Registry.live_eq_some.mp registered).1 bound
    exact unattended id call current holds.session
  refine ⟨unbound, ?_⟩
  rcases attended.detached ref session registered unbound with recorded | ⟨id, call, current, removes⟩
  · obtain ⟨detachedAt, recorded⟩ := Option.ne_none_iff_exists'.mp recorded
    exact ⟨detachedAt, recorded, fun now rest late => ConnectionNode.cleanup_removes rfl registered
      (ConnectionNode.expired_of_released unbound recorded late)⟩
  · exact (unattended id call current removes.session).elim

/-- A client loses its stream, resumes, and loses its stream again. -/
theorem twice_detached_session_expires :
    ∃ final session, (connectionMachine {}).run {}
        [.identify 0 0 ⟨"sess-1", 1001, 2001, "conn-1", "gw-1", "gen-1"⟩ {30},
          .ready 0 emptyObject fun _ => ⟨0, true⟩, .readCurrent 0, .detach 0 0, .close 0,
          .lookup 1 "sess-1" ⟨"conn-2", "gw-1", "gen-1", 0⟩, .authenticate 1 (.ok ⟨true, 1001, 2001⟩),
          .rebind 1 ⟨10, true⟩, .refreshOwner 1 none, .refreshPresence 1 none, .readCurrent 1,
          .detach 1 20, .close 1] = some final ∧
      final.reg.live 0 = some session ∧ session.binding = none ∧ session.detachedAt = some 20 := by
  simp only [exists_and_left]
  refine Machine.exists_run rfl fun run => ⟨_, rfl, ?_⟩
  obtain ⟨unbound, detachedAt, recorded, _⟩ := @unattended_session_expires {} _ _ 0 _ run (by decide) rfl
    fun id call present => by
      match id with
      | 0 => cases present
      | 1 => cases present
      | _ + 2 => cases present
  exact ⟨unbound, rfl⟩

/-- The owner cannot be refreshed after a resumption has rebound the session. The call returns, and
the session stays bound with nobody to detach it: no cleanup ever finds it expired. -/
theorem failed_resumption_leaves_session_bound :
    ∃ final session, (connectionMachine {}).run {}
        [.identify 0 0 ⟨"sess-1", 1001, 2001, "conn-1", "gw-1", "gen-1"⟩ {30},
          .ready 0 emptyObject fun _ => ⟨0, true⟩, .readCurrent 0, .detach 0 0, .close 0,
          .lookup 1 "sess-1" ⟨"conn-2", "gw-1", "gen-1", 0⟩, .authenticate 1 (.ok ⟨true, 1001, 2001⟩),
          .rebind 1 ⟨10, true⟩, .refreshOwner 1 (some ⟨.unavailable, "store unavailable"⟩)] = some final ∧
      (∀ id, final.calls id = none) ∧ final.reg.live 0 = some session ∧ session.binding = some 2 ∧
      session.detachedAt = none ∧ ∀ now, expired {} now session = false := by
  refine ⟨_, _, rfl, fun id => ?_, rfl, rfl, rfl, fun _ => rfl⟩
  match id with
  | 0 => rfl
  | 1 => rfl
  | _ + 2 => rfl

end Cordis.Session
