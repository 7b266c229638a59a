import Cordis.Session.Registry

/-! # The indexes agree with the sessions once every operation has finished

While operations are in progress the guild index may be ahead of a session or behind it: a session
that has left a guild is still indexed until the detaching operation reaches the index, and one
that has joined is not indexed until the attaching operation does. `Settling` allows exactly those
two differences. They vanish with the operations that cause them.

The second half of an operation acts on what its first half saw. It keeps the relation when it
finds the session as the first half left it (`Undisturbed`), and breaks it otherwise: an
`attachGuildUser` that listed a session before its removal puts the removed session into the index
for good.
-/

namespace Cordis.Session

open SetIndex RegistryNode

namespace Registry

/-- The indexes agree with the registered sessions up to pairs of a guild and a session that an
operation in progress is about to remove from the guild index (`leaving`) or to add (`joining`). -/
structure Settling (reg : Registry) (leaving joining : ℤ → SessionRef → Prop) : Prop where
  users : reg.UsersExact
  sound : ∀ guildID ref, reg.guilds.Has guildID ref → reg.Joined ref guildID ∨ leaving guildID ref
  complete : ∀ guildID ref, reg.Joined ref guildID → reg.guilds.Has guildID ref ∨ joining guildID ref
  usersTight : reg.users.Tight
  guildsTight : reg.guilds.Tight

namespace Settling

variable {reg : Registry} {leaving joining leaving' joining' : ℤ → SessionRef → Prop}

variable (settling : reg.Settling leaving joining)

include settling

theorem mono (leave : ∀ guildID ref, leaving guildID ref → leaving' guildID ref)
    (join : ∀ guildID ref, joining guildID ref → joining' guildID ref) : reg.Settling leaving' joining' where
  users := settling.users
  sound guildID ref has := (settling.sound guildID ref has).imp_right (leave guildID ref)
  complete guildID ref joined := (settling.complete guildID ref joined).imp_right (join guildID ref)
  usersTight := settling.usersTight
  guildsTight := settling.guildsTight

/-- With nothing in progress the indexes are consistent. -/
theorem consistent (quiet : ∀ guildID ref, ¬ leaving guildID ref ∧ ¬ joining guildID ref) : reg.Consistent where
  users := settling.users
  guilds guildID ref :=
    ⟨fun has => (settling.sound guildID ref has).resolve_right (quiet guildID ref).1,
      fun joined => (settling.complete guildID ref joined).resolve_right (quiet guildID ref).2⟩
  usersTight := settling.usersTight
  guildsTight := settling.guildsTight

variable {ref : SessionRef}

theorem addSession {session : LogicalSession} (fresh : reg.heap ref = none)
    (unused : reg.sessions session.id = none) : (reg.addSession ref session).Settling leaving joining := by
  have unjoined : ∀ guildID, ¬ reg.Joined ref guildID := by simp [Joined, live, fresh]
  refine ⟨settling.users.addSession fresh unused, fun guildID other has => ?_, fun guildID other => ?_,
    settling.usersTight.add, settling.guildsTight.addAll _⟩
  · rw [joined_addSession unused]
    rcases has_addAll.mp has with has | ⟨carried, rfl⟩
    · refine (settling.sound guildID other has).imp_left fun joined => ?_
      rwa [if_neg]
      rintro rfl
      exact unjoined guildID joined
    · exact .inl (by rwa [if_pos rfl])
  · rw [joined_addSession unused]
    split_ifs with same
    · exact fun carried => .inl (has_addAll.mpr (.inr ⟨carried, same⟩))
    · intro joined
      exact (settling.complete guildID other joined).imp_left fun has => has_addAll.mpr (.inl has)

/-- Removal with a copy that covers the session's guilds leaves only what another operation is
removing anyway. -/
theorem unregister {guildIDs : Finset ℤ} (covered : ∀ guildID, reg.Joined ref guildID → guildID ∈ guildIDs) :
    (reg.unregister ref guildIDs).Settling leaving joining := by
  cases present : reg.live ref with
  | none => simpa only [Registry.unregister, present] using settling
  | some session =>
    have guilds := guilds_unregister present guildIDs
    refine ⟨settling.users.unregister ref guildIDs, fun guildID other has => ?_, fun guildID other => ?_,
      users_unregister present guildIDs ▸ settling.usersTight.remove,
      guilds ▸ settling.guildsTight.removeAll _⟩
    · rw [guilds, has_removeAll] at has
      rw [joined_unregister]
      refine (settling.sound guildID other has.1).imp_left fun joined => ⟨?_, joined⟩
      rintro rfl
      exact has.2 ⟨covered guildID joined, rfl⟩
    · rw [guilds, has_removeAll, joined_unregister]
      rintro ⟨different, joined⟩
      refine (settling.complete guildID other joined).imp_left fun has => ⟨has, ?_⟩
      exact fun removed => different removed.2

/-- A section on one session may change its guilds, as long as every guild it gains waits for the
index and every guild it loses waits to be dropped from it. -/
theorem modify (ref : SessionRef) {f : LogicalSession → LogicalSession}
    (sameID : ∀ session, (f session).id = session.id) (sameUser : ∀ session, (f session).userID = session.userID)
    (leave : ∀ guild other, leaving guild other → leaving' guild other)
    (join : ∀ guild other, joining guild other → joining' guild other)
    (gained : ∀ session, ∀ guild ∈ (f session).guilds, guild ∈ session.guilds ∨ joining' guild ref)
    (lost : ∀ session : LogicalSession, ∀ guild ∈ session.guilds,
      guild ∈ (f session).guilds ∨ leaving' guild ref) : (reg.modify ref f).Settling leaving' joining' := by
  refine ⟨settling.users.modify ref sameID sameUser, fun guild other has => ?_,
    fun guild other joined => ?_, ?_, ?_⟩
  · rw [modify_guilds] at has
    rw [joined_modify sameID]
    rcases settling.sound guild other has with ⟨session, held, carried⟩ | waits
    · by_cases same : other = ref
      · subst same
        exact (lost session guild carried).imp_left fun kept => ⟨session, held, by rwa [if_pos rfl]⟩
      · exact .inl ⟨session, held, by rwa [if_neg same]⟩
    · exact .inr (leave guild other waits)
  · rw [modify_guilds]
    obtain ⟨session, held, carried⟩ := (joined_modify sameID).mp joined
    have before : guild ∈ session.guilds ∨ joining' guild other := by
      split_ifs at carried with same
      · exact same ▸ gained session guild carried
      · exact .inl carried
    rcases before with carried | waits
    · exact (settling.complete guild other ⟨session, held, carried⟩).imp_right (join guild other)
    · exact .inr waits
  · rw [modify_users]
    exact settling.usersTight
  · rw [modify_guilds]
    exact settling.guildsTight

/-- Indexing a session that has joined the guild settles the pair. -/
theorem addGuildIndex {guildID : ℤ} (joined : reg.Joined ref guildID)
    (leave : ∀ guild other, leaving guild other → leaving' guild other)
    (join : ∀ guild other, joining guild other → joining' guild other ∨ (guild = guildID ∧ other = ref)) :
    { reg with guilds := addIndex reg.guilds guildID ref }.Settling leaving' joining' := by
  refine ⟨settling.users, fun guild other has => ?_, fun guild other joined => ?_, settling.usersTight,
    settling.guildsTight.add⟩
  · rcases has_add.mp has with has | ⟨rfl, rfl⟩
    · exact (settling.sound guild other has).imp_right (leave guild other)
    · exact .inl joined
  · rcases settling.complete guild other joined with has | waits
    · exact .inl (has_add.mpr (.inl has))
    · rcases join guild other waits with waits | indexed
      · exact .inr waits
      · exact .inl (has_add.mpr (.inr indexed))

/-- Dropping pairs from the index that no registered session has joined settles them. -/
theorem dropGuildIndex {index : SetIndex ℤ SessionRef} (gone : ℤ → SessionRef → Prop) (tight : index.Tight)
    (has : ∀ guild other, index.Has guild other ↔ reg.guilds.Has guild other ∧ ¬ gone guild other)
    (unjoined : ∀ guild other, gone guild other → reg.guilds.Has guild other → ¬ reg.Joined other guild)
    (leave : ∀ guild other, leaving guild other → leaving' guild other ∨ gone guild other)
    (join : ∀ guild other, joining guild other → joining' guild other) :
    { reg with guilds := index }.Settling leaving' joining' := by
  refine ⟨settling.users, fun guild other indexed => ?_, fun guild other joined => ?_,
    settling.usersTight, tight⟩
  · obtain ⟨before, kept⟩ := (has guild other).mp indexed
    refine (settling.sound guild other before).imp_right fun waits => ?_
    exact (leave guild other waits).resolve_right kept
  · rcases settling.complete guild other joined with before | waits
    · exact .inl ((has guild other).mpr ⟨before, fun dropped => unjoined guild other dropped before joined⟩)
    · exact .inr (join guild other waits)

end Settling

end Registry

/-! ## Operations in progress -/

namespace Task

/-- The operation is about to drop the session from the guild's index. -/
def Leaving (guildID : ℤ) (ref : SessionRef) : Task → Prop
  | .detachIndex guild session _ => guild = guildID ∧ session = ref
  | .detachGuild guild _ => guild = guildID
  | _ => False

/-- The operation is about to index the session under the guild. -/
def Joining (guildID : ℤ) (ref : SessionRef) : Task → Prop
  | .attachIndex guild session _ => guild = guildID ∧ session = ref
  | _ => False

/-- The next section finds what the operation's earlier sections left: the copied guild ids still
cover the session to remove, the session to index is still registered and still has the guild, and
no session to drop from the index has joined the guild again. -/
def Undisturbed (reg : Registry) : Task → Prop
  | .remove session guildIDs => ∀ held ∈ reg.live session, held.guilds ⊆ guildIDs
  | .attachIndex guildID session _ => reg.Joined session guildID
  | .detachIndex guildID session _ => ¬ reg.Joined session guildID
  | .detachGuild guildID [] => ∀ session ∈ reg.guilds.members guildID, ¬ reg.Joined session guildID
  | _ => True

instance (reg : Registry) : ∀ task : Task, Decidable (task.Undisturbed reg)
  | .remove session _ => inferInstanceAs (Decidable (∀ held ∈ reg.live session, _))
  | .attachIndex guildID session _ => inferInstanceAs (Decidable (reg.Joined session guildID))
  | .detachIndex guildID session _ => inferInstanceAs (Decidable (¬ reg.Joined session guildID))
  | .detachGuild guildID [] => inferInstanceAs (Decidable (∀ session ∈ reg.guilds.members guildID, _))
  | .detachGuild _ (_ :: _) | .attach .. | .detach .. | .refresh | .publish .. | .publishing .. =>
      isTrue trivial

end Task

namespace RegistryNode

/-- The indexes agree with the sessions up to the operations in progress. -/
def Settled (node : RegistryNode) : Prop :=
  node.reg.Settling (fun guildID ref => node.tasks.Any (Task.Leaving guildID ref))
    (fun guildID ref => node.tasks.Any (Task.Joining guildID ref))

/-- Every operation finds the sessions as it left them. -/
def Undisturbed (node : RegistryNode) : RegistryEvent → Prop
  | .advance id => ∀ task ∈ node.tasks id, task.Undisturbed node.reg
  | _ => True

instance (node : RegistryNode) : ∀ event, Decidable (node.Undisturbed event)
  | .advance id => inferInstanceAs (Decidable (∀ task ∈ node.tasks id, _))
  | .addSession .. | .removeSession .. | .attachGuildUser .. | .detachGuildUser .. | .detachGuild ..
  | .refreshAllRoutes .. | .detachRoutes .. | .refreshRoutes .. => isTrue trivial

variable {node next : RegistryNode} {id : ℕ} {task new : Task}

/-- An operation may begin after any section that leaves the registry settling. -/
theorem settled_begin {reg : Registry}
    (settling : reg.Settling (fun guildID ref => node.tasks.Any (Task.Leaving guildID ref))
      (fun guildID ref => node.tasks.Any (Task.Joining guildID ref)))
    (step : begin { node with reg } id task = some next) : next.Settled := by
  unfold begin at step
  split at step
  · cases step
  · next free =>
    cases step
    exact settling.mono (fun _ _ any => any.set_of_none free _) fun _ _ any => any.set_of_none free _

variable (settled : node.Settled)

include settled

section

variable (current : node.tasks id = some task)

include current

/-- An operation that no pair waits for may become one that no pair waits for. -/
theorem Settled.replace (idle : ∀ guildID ref, ¬ task.Leaving guildID ref ∧ ¬ task.Joining guildID ref) (new : Task) :
    node.reg.Settling (fun guildID ref => (node.tasks.set id new).Any (Task.Leaving guildID ref))
      (fun guildID ref => (node.tasks.set id new).Any (Task.Joining guildID ref)) :=
  settled.mono
    (fun guildID ref any => any.move current fun leaving => absurd leaving (idle guildID ref).1)
    (fun guildID ref any => any.move current fun joining => absurd joining (idle guildID ref).2)

theorem Settled.drop (idle : ∀ guildID ref, ¬ task.Leaving guildID ref ∧ ¬ task.Joining guildID ref) :
    node.reg.Settling (fun guildID ref => (node.tasks.drop id).Any (Task.Leaving guildID ref))
      (fun guildID ref => (node.tasks.drop id).Any (Task.Joining guildID ref)) := by
  refine settled.mono (fun guildID ref any => ?_) fun guildID ref any => ?_
  · exact (any.drop_or current).resolve_right (idle guildID ref).1
  · exact (any.drop_or current).resolve_right (idle guildID ref).2

theorem Settled.leave {guildID : ℤ} {session : SessionRef} (idle : ∀ guild ref, ¬ task.Joining guild ref)
    (kept : ∀ guild ref, task.Leaving guild ref → new.Leaving guild ref) (leaving : new.Leaving guildID session) :
    (node.move id (node.reg.modify session (LogicalSession.leaveGuild guildID)) new).Settled := by
  refine Registry.Settling.modify settled session (fun _ => rfl) (fun _ => rfl)
    (fun guild ref any => any.move current (kept guild ref))
    (fun guild ref any => any.move current fun joining => absurd joining (idle guild ref))
    (fun _ _ carried => .inl (Finset.mem_of_mem_erase carried)) fun _ guild carried => ?_
  by_cases same : guild = guildID
  · subst same
    exact .inr (Pool.any_set_self _ id leaving)
  · exact .inl (Finset.mem_erase.mpr ⟨same, carried⟩)

theorem Settled.advance (undisturbed : task.Undisturbed node.reg) (step : node.advance id task = some next) : next.Settled := by
  cases task with
  | remove session guildIDs =>
    simp only [advance] at step
    split_ifs at step
    · cases step
      refine Registry.Settling.unregister (settled.replace current (fun _ _ => ⟨not_false, not_false⟩) _) ?_
      rintro guildID ⟨held, live, carried⟩
      exact undisturbed held live carried
    · cases step
      exact settled.drop current fun _ _ => ⟨not_false, not_false⟩
  | attach guildID sessions =>
    cases sessions with
    | nil =>
      cases step
      exact settled.replace current (fun _ _ => ⟨not_false, not_false⟩) _
    | cons session rest =>
      cases step
      refine Registry.Settling.modify settled session (fun _ => rfl) (fun _ => rfl)
        (fun guild ref any => any.move current False.elim) (fun guild ref any => any.move current False.elim)
        (fun _ guild carried => ?_) fun _ _ carried => .inl (Finset.mem_insert_of_mem carried)
      rcases Finset.mem_insert.mp carried with rfl | carried
      · exact .inr (Pool.any_set_self _ id ⟨rfl, rfl⟩)
      · exact .inl carried
  | attachIndex guildID session rest =>
    cases step
    refine Registry.Settling.addGuildIndex settled undisturbed
      (fun guild ref any => any.move current False.elim) fun guild ref any => ?_
    refine (any.set_or current _).imp_right fun joining => ?_
    exact ⟨joining.1.symm, joining.2.symm⟩
  | detach guildID sessions =>
    cases sessions with
    | nil =>
      cases step
      exact settled.replace current (fun _ _ => ⟨not_false, not_false⟩) _
    | cons session rest =>
      cases step
      exact settled.leave current (fun _ _ => not_false) (fun _ _ => False.elim) ⟨rfl, rfl⟩
  | detachIndex guildID session rest =>
    cases step
    refine Registry.Settling.dropGuildIndex settled (fun guild ref => guild = guildID ∧ ref = session)
      settled.guildsTight.remove (fun _ _ => has_remove) (fun guild ref gone _ => ?_) (fun guild ref any => ?_)
      fun guild ref any => any.move current False.elim
    · obtain ⟨rfl, rfl⟩ := gone
      exact undisturbed
    · refine (any.set_or current _).imp_right fun leaving => ?_
      exact ⟨leaving.1.symm, leaving.2.symm⟩
  | detachGuild guildID sessions =>
    cases sessions with
    | nil =>
      cases step
      refine Registry.Settling.dropGuildIndex settled (fun guild _ => guild = guildID)
        settled.guildsTight.dropKey (fun _ _ => has_dropKey) (fun guild ref gone has => ?_)
        (fun guild ref any => (any.set_or current _).imp_right Eq.symm)
        fun guild ref any => any.move current False.elim
      subst gone
      exact undisturbed ref (has_iff_mem_members.mp has)
    | cons session rest =>
      cases step
      exact settled.leave current (fun _ _ => not_false) (fun _ _ leaving => leaving) rfl
  | refresh =>
    cases step
    exact settled.replace current (fun _ _ => ⟨not_false, not_false⟩) _
  | publish => cases step
  | publishing => cases step

end

theorem Settled.step {event : RegistryEvent} (undisturbed : node.Undisturbed event)
    (step : node.step event = some next) : next.Settled := by
  cases event with simp only [RegistryNode.step] at step
  | addSession ref session =>
    split_ifs at step with free
    cases step
    exact Registry.Settling.addSession settled free.1 free.2
  | removeSession id session =>
    have settling := Registry.Settling.modify settled session unbindLocked_id unbindLocked_userID
      (fun _ _ waits => waits) (fun _ _ waits => waits)
      (fun held guild carried => .inl (unbindLocked_guilds held ▸ carried))
      (fun held guild carried => .inl ((unbindLocked_guilds held).symm ▸ carried))
    exact settled_begin settling step
  | attachGuildUser id guildID userID order =>
    split_ifs at step
    · cases step
      exact settled
    · exact settled_begin settled step
  | detachGuildUser id guildID userID order | detachGuild id guildID order =>
    split_ifs at step
    exact settled_begin settled step
  | refreshAllRoutes id => exact settled_begin settled step
  | advance id =>
    obtain ⟨task, current, step⟩ := Option.bind_eq_some_iff.mp step
    exact settled.advance current (undisturbed task current) step
  | detachRoutes id failure =>
    split at step
    · next active number current =>
      split_ifs at step
      cases step
      have moved := settled.replace current (fun _ _ => ⟨not_false, not_false⟩) (.publishing active number)
      cases failure <;> exact moved
    · cases step
  | refreshRoutes id failure =>
    split at step
    · next active number current =>
      cases step
      have moved := settled.drop current fun _ _ => ⟨not_false, not_false⟩
      cases failure <;> exact moved
    · cases step

end RegistryNode

/-- In every run in which each operation finds the sessions as its own earlier sections left them,
the indexes are consistent with the registered sessions whenever no operation is in progress. -/
theorem indexes_consistent_when_idle {events : List RegistryEvent} {final : RegistryNode}
    (run : registryMachine.run {} events = some final)
    (undisturbed : registryMachine.Along RegistryNode.Undisturbed {} events)
    (idle : ∀ id, final.tasks id = none) : final.reg.Consistent := by
  have start : RegistryNode.Settled {} := by
    refine ⟨.empty, ?_, ?_, ?_, ?_⟩
    · rintro _ _ ⟨_, ⟨⟩, _⟩
    · rintro _ _ ⟨_, ⟨⟩, _⟩
    · rintro _ _ ⟨⟩
    · rintro _ _ ⟨⟩
  have settled : final.Settled :=
    Machine.invariant_along (fun _ _ _ settled undisturbed step => settled.step undisturbed step) run undisturbed start
  refine Registry.Settling.consistent settled fun guildID ref => ⟨?_, ?_⟩
  · rintro ⟨id, task, present, _⟩
    cases (idle id).symm.trans present
  · rintro ⟨id, task, present, _⟩
    cases (idle id).symm.trans present

/-- A session is added, joins a guild, and is removed, with every operation run to its end. -/
theorem undisturbed_operations_consistent :
    ∃ final, registryMachine.run {}
        [.addSession 0 (newSession {} "sess-1" 1001 2001 "conn-1" "gw-1" "gen-1" {30}),
          .attachGuildUser 0 31 1001 [0], .advance 0, .advance 0, .advance 0, .removeSession 1 0,
          .advance 1, .advance 0, .detachRoutes 0 none, .refreshRoutes 0 none, .advance 1,
          .detachRoutes 1 none, .refreshRoutes 1 none] = some final ∧
      final.reg.Consistent := by
  refine Machine.exists_run rfl fun run => indexes_consistent_when_idle run (by decide) fun id => ?_
  match id with
  | 0 => rfl
  | 1 => rfl
  | _ + 2 => rfl

/-- `attachGuildUser` lists a session, `removeSession` removes it, and the attachment then indexes
the removed session. No operation is left that would take it out of the index again. -/
theorem attach_indexes_removed_session :
    ∃ final, registryMachine.run {}
        [.addSession 0 (newSession {} "sess-1" 1001 2001 "conn-1" "gw-1" "gen-1" {30}),
          .attachGuildUser 0 31 1001 [0], .removeSession 1 0, .advance 1, .advance 1,
          .detachRoutes 1 none, .refreshRoutes 1 none, .advance 0, .advance 0, .advance 0, .advance 0,
          .detachRoutes 0 none, .refreshRoutes 0 none] = some final ∧
      (∀ id, final.tasks id = none) ∧ final.reg.guilds.Has 31 0 ∧ final.reg.live 0 = none ∧
      ¬ final.reg.Consistent := by
  have indexed : ∀ reg : Registry, reg.guilds.Has 31 0 → reg.live 0 = none → ¬ reg.Consistent := by
    intro reg has dead consistent
    obtain ⟨session, live, _⟩ := (consistent.guilds 31 0).mp has
    cases dead.symm.trans live
  refine ⟨_, rfl, fun id => ?_, by decide, rfl, indexed _ (by decide) rfl⟩
  match id with
  | 0 => rfl
  | 1 => rfl
  | _ + 2 => rfl

end Cordis.Session
