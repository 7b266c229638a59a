import Cordis.Session.Revocation
import Cordis.Session.VisibilityFreshness

/-! # A removed member keeps nothing

The invariant of the removals holds in every run that respects the order of sections, so when the
removals of a member are over, no session of the member is indexed under the guild and no snapshot
from before is retained. Without that order, a session that was loaded before the removal and
registered after it brings both back.
-/

namespace Cordis.Session

namespace MembershipNode

variable {cfg : NodeConfig} {node next : MembershipNode} {guildID userID loaded : ℤ}

namespace Guarded

theorem step {event : MembershipEvent} (guarded : node.Guarded guildID userID loaded)
    (around : event.Around guildID userID loaded) (ordered : node.InOrder event)
    (step : (membershipMachine cfg).step node event = some next) : next.Guarded guildID userID loaded := by
  cases event with simp only [membershipMachine, MembershipNode.step, stepIdentify, stepRemoval] at step
  | loadReadyGuilds id identity response =>
    split at step <;> cases step
    next accepted =>
      refine guarded.load fun mine snapshot found => ?_
      obtain ⟨ready, listed, same, revision⟩ := loadReadyGuilds_lookup accepted found
      exact revision ▸ around mine ready listed same
  | addSession id ref =>
    split at step
    · next current =>
      split_ifs at step with free
      cases step
      exact guarded.addSession current rfl rfl free.1 ordered
    · cases step
  | retainSnapshots id =>
    split at step <;> cases step
    next current => exact guarded.retain current ordered
  | removed id event =>
    split at step
    · next free =>
      split_ifs at step
      cases step
      exact guarded.beginRemoval free fun concerns => around concerns.1 concerns.2
    · cases step
  | invalidate id =>
    split at step <;> cases step
    next event found current =>
      refine guarded.invalidate current _ fun snapshot stored => ?_
      cases found with
      | false => exact stored
      | true => exact visibilitySnapshotFor_invalidate stored
  | detachGuildUser id order =>
    split at step
    · next current =>
      split_ifs at step with all
      cases step
      exact guarded.list current all
    · cases step
  | leaveGuild id =>
    split at step <;> cases step
    next current => exact guarded.leaveGuild current
  | unindex id =>
    split at step <;> cases step
    next current => exact guarded.unindex current
  | clear id =>
    split at step <;> cases step
    next current => exact guarded.clear current
  | «section» ref ran =>
    cases step
    exact guarded.sections ref ran

theorem run {events : List MembershipEvent} (guarded : node.Guarded guildID userID loaded)
    (run : (membershipMachine cfg).run node events = some next)
    (around : ∀ event ∈ events, event.Around guildID userID loaded)
    (ordered : (membershipMachine cfg).Along InOrder node events) : next.Guarded guildID userID loaded :=
  Machine.invariant_along (fun _ _ _ guarded guard step => guarded.step guard.1 guard.2 step) run
    (ordered.and_forall around) guarded

end Guarded

end MembershipNode

/-- In every run in which removals of the user from the guild are newer than the ready states loaded
for the user, and identifying sessions keep ahead of them, nothing is left of the membership when the
removals are over: no session of the user is indexed under the guild, and no snapshot older than the
removal is retained. -/
theorem removed_member_detached {cfg : NodeConfig} {events : List MembershipEvent} {final : MembershipNode}
    {removal : MemberRemoved} {loaded : ℤ} (run : (membershipMachine cfg).run {} events = some final)
    (around : ∀ event ∈ events, event.Around removal.guildID removal.userID loaded)
    (ordered : (membershipMachine cfg).Along MembershipNode.InOrder {} events)
    (cleared : removal ∈ final.cleared) (idle : ∀ id, final.removals id = none) :
    (∀ ref session, final.reg.heap ref = some session → session.userID = removal.userID →
      ¬ final.reg.guilds.Has removal.guildID ref) ∧
    Fresh final.users removal.userID removal.guildID removal.accessRevision := by
  have start : MembershipNode.Guarded removal.guildID removal.userID loaded {} := by
    refine ⟨?_, ?_, Pool.all_empty _, Pool.all_empty _, Pool.all_empty _, ?_, ?_, Pool.all_empty _, ?_, ?_,
      Pool.all_empty _⟩
    · refine fun _ _ => ⟨?_, ?_⟩
      · rintro ⟨_, ⟨⟩, _⟩
      · rintro ⟨_, ⟨⟩, _⟩
    · rintro _ ⟨_, ⟨⟩, _⟩
    · rintro _ ⟨⟩
    · rintro _ ⟨⟩
    · rintro _ ⟨⟩
    · rintro _ ⟨⟩
  have guarded := start.run run around ordered
  have finished := guarded.finished removal cleared ⟨rfl, rfl⟩
  refine ⟨fun ref session held mine => (finished ref ⟨session, held, mine⟩).1, fun snapshot stored => ?_⟩
  rcases guarded.visible snapshot stored with ⟨ref, of, carried⟩ | ⟨id, running, present, _⟩
  · exact ((finished ref of).2 carried).elim
  · cases (idle id).symm.trans present

/-- The session is registered before the removal lists the user's sessions, and its snapshots are
retained between the invalidation, which finds no visibility state yet, and the end. -/
theorem registered_session_detached :
    ∃ final, (membershipMachine {}).run {}
        [.loadReadyGuilds 0 ⟨"sess-1", 1001, 2001, "conn-1", "gw-1", "gen-1"⟩ (.ok [⟨30, 4, [⟨40, 30⟩]⟩]),
          .addSession 0 0, .removed 0 ⟨30, 1001, 5⟩, .invalidate 0, .retainSnapshots 0,
          .section 0 (.dispatch "guild.member.removed" emptyObject ⟨0, true⟩), .detachGuildUser 0 [0],
          .leaveGuild 0, .unindex 0, .clear 0] = some final ∧
      (∀ ref session, final.reg.heap ref = some session → session.userID = 1001 →
        ¬ final.reg.guilds.Has 30 ref) ∧ Fresh final.users 1001 30 5 := by
  refine Machine.exists_run rfl fun run =>
    @removed_member_detached {} _ _ ⟨30, 1001, 5⟩ 4 run (by decide) (by decide) (by decide) fun id => ?_
  match id with
  | 0 => rfl
  | _ + 1 => rfl

/-- The whole removal runs between the load of the ready state and `addSession`. The removed member's
session is then indexed under the guild, and the snapshot from before the removal is retained. -/
theorem removed_member_identifies :
    ∃ final session snapshot, (membershipMachine {}).run {}
        [.loadReadyGuilds 0 ⟨"sess-1", 1001, 2001, "conn-1", "gw-1", "gen-1"⟩ (.ok [⟨30, 4, [⟨40, 30⟩]⟩]),
          .removed 0 ⟨30, 1001, 5⟩, .invalidate 0, .detachGuildUser 0 [], .clear 0, .addSession 0 0,
          .retainSnapshots 0] = some final ∧
      (∀ id, final.identifies id = none ∧ final.removals id = none) ∧
      final.reg.live 0 = some session ∧ session.userID = 1001 ∧ final.reg.guilds.Has 30 0 ∧
      visibilitySnapshotFor final.users 1001 30 = some snapshot ∧ snapshot.accessRevision = 4 ∧
      snapshot.contains 40 = true := by
  refine ⟨_, _, _, rfl, fun id => ?_, rfl, rfl, by decide, rfl, rfl, by decide⟩
  match id with
  | 0 => exact ⟨rfl, rfl⟩
  | _ + 1 => exact ⟨rfl, rfl⟩

end Cordis.Session
