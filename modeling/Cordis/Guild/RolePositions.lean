import Cordis.Guild.QuotaLocks
import Cordis.Guild.RolePlacement
import Cordis.Guild.Traces

/-! # The positions of a guild's roles

Roles are placed against a list that the transaction has read. Creations exclude each other, since they
hold the lock of the quota for roles from before they list the roles until they end; a reordering takes
no lock before it writes, and writes only the rows that it moves. So a reordering and a creation, or two
reorderings, may choose the same position, and nothing in the tables refuses it. Besides, a role that the
owner creates when one stands at the highest position of 32 bits is put at that position as well.

If no reordering lists the roles while another reordering or a creation in the guild is past its list,
and no creation does while a reordering is, and no owner creates a role when one is at the highest
position, then the roles of every guild have distinct positive positions.
-/

namespace Cordis.Guild

open RowTable GuildDatabase Pool Service
open Service (Apart Audited Disciplined KeptApart Listed)
open List Option

/-- A role that is neither deleted nor the default role. -/
def Role.Ordinary (role : Role) : Prop := role.deleted = false ∧ role.isDefault = false
deriving Decidable

/-- The roles of a guild, other than the default role, have distinct positive positions. -/
def GuildTables.PositionsDistinct (tables : GuildTables) : Prop :=
  (∀ role ∈ tables.roles, role.Ordinary → 0 < role.position) ∧
    ∀ role ∈ tables.roles, ∀ other ∈ tables.roles, role.Ordinary → other.Ordinary → role.guildID = other.guildID →
      role.position = other.position → role = other

/-- The guild whose roles a statement lists. -/
def listedGuild : Statement → Option ℤ
  | .query (.listGuildRoles guildID) => some guildID
  | _ => none

variable (state : GuildServiceState)

/-- If the next statement of a transaction lists the roles for a creation by the owner, none of them is at
the highest position. -/
def ListsBelowTop (id : ℕ) : Prop :=
  ∀ task ∈ state.running id, ownerCreates task.request task.log = true →
    ∀ statement ∈ Service.nextCall task.script, ∀ guildID ∈ listedGuild statement,
      ∀ role ∈ (state.store.view (some id)).listGuildRoles guildID, role.position ≠ maxInt32
deriving Decidable

def BelowTop : ServiceEvent GuildRequest → Prop
  | .exec id => ListsBelowTop state id
  | .begin _ _ | .commit _ | .rollback _ => True

instance : ∀ event, Decidable (BelowTop state event)
  | .exec id => inferInstanceAs (Decidable (ListsBelowTop state id))
  | .begin _ _ | .commit _ | .rollback _ => isTrue trivial

/-- Reorderings are kept apart from each other and from creations, and no owner creates above the top. -/
def PlacedApart (event : ServiceEvent GuildRequest) : Prop :=
  KeptApart reordering placing state event ∧ BelowTop state event
deriving Decidable

section Invariant

/-- The role is the committed one, up to its permissions, its deletion and its position. -/
structure Continues (db : GuildDatabase) (role old : Role) : Prop where
  committed : db.roles.find none role.id = some old
  guild : old.guildID = role.guildID
  default : old.isDefault = role.isDefault
  live : role.deleted = false → old.deleted = false

/-- Where a version of a role that a transaction sees comes from. -/
inductive Lineage (db : GuildDatabase) (task : GuildTask) (role : Role) : Prop where
  | keeps {old : Role} (continues : Continues db role old) (position : role.position = old.position)
  | moved {old : Role} {positions : List (ℤ × ℕ)} {seen : List ℤ} (continues : Continues db role old)
      (wrote : Statement.write (.updateGuildRolePositions role.guildID positions seen) ∈ task.calls)
      (position : positions.lookup role.id = some role.position)
  | created {new : Role} (wrote : Statement.write (.createGuildRole new) ∈ task.calls) (id : new.id = role.id)
      (guild : new.guildID = role.guildID) (position : new.position = role.position)

/-- What keeps the positions distinct. -/
structure PositionInvariant (state : GuildServiceState) : Prop where
  listed : Listed state
  disciplined : Disciplined PlacesAllowed (fun request log _ => PlacesAll request log) state
  audited : Audited PlacesAllowed state
  apart : Apart reordering placing state
  locks : LocksHeld GuildDatabase.quotas quotaScope state
  positive : ∀ role, state.store.roles.find none role.id = some role → role.Ordinary → 0 < role.position
  distinct : ∀ role other, state.store.roles.find none role.id = some role → state.store.roles.find none other.id = some other →
    role.Ordinary → other.Ordinary → role.guildID = other.guildID → role.position = other.position → role = other
  /-- An uncommitted row goes back to a committed one, or has been placed by its transaction. -/
  changed : ∀ tx roleID value, state.store.roles.Holds tx roleID value →
    ∃ task, state.running tx = some task ∧ (∃ statement ∈ task.calls, statement.WritesRoles = true) ∧
      ∃ role, value = some role ∧ Lineage state.store task role
  /-- The roles that a transaction has listed are all there are until it ends. -/
  known : state.running.All fun _ task => ∀ guildID roles, ⟨.query (.listGuildRoles guildID), roles⟩ ∈ task.log →
    ∀ role, state.store.roles.find none role.id = some role → role.guildID = guildID → role.deleted = false →
      ∃ listed ∈ roles, listed.id = role.id ∧ listed.isDefault = role.isDefault ∧ listed.position = role.position
  belowTop : state.running.All fun _ task => ∀ guildID roles earlier,
    (⟨.query (.listGuildRoles guildID), roles⟩ :: earlier : StatementLog) <:+ task.log →
      ownerCreates task.request earlier = true → ∀ role ∈ roles, role.position ≠ maxInt32
  /-- A reordering that has counted all its rows holds each of them. -/
  moved : state.running.All fun tx task => ∀ guildID positions seen,
    ⟨.write (.updateGuildRolePositions guildID positions seen), positions.length⟩ ∈ task.log →
      ∀ item ∈ positions, ∃ role, state.store.roles.Holds tx item.1 (some role) ∧ role.position = item.2

variable {limits : GuildLimits} {state next : GuildServiceState} {tx other : ℕ} {task rival : GuildTask}

variable {db : GuildDatabase} {role : Role} {old : Role}

theorem Continues.ordinary (continues : Continues db role old) (ordinary : role.Ordinary) : old.Ordinary :=
  ⟨continues.live ordinary.1, continues.default.trans ordinary.2⟩

theorem Continues.id (continues : Continues db role old) : old.id = role.id :=
  key_of_find continues.committed

theorem Continues.row (continues : Continues db role old) : db.roles.find none old.id = some old :=
  continues.id ▸ continues.committed

/-- A version with other permissions, or deleted, comes from where the version before came from. -/
theorem Lineage.like {new : Role} (lineage : Lineage db task role) (id : new.id = role.id)
    (guild : new.guildID = role.guildID) (default : new.isDefault = role.isDefault)
    (live : new.deleted = false → role.deleted = false) (position : new.position = role.position) :
    Lineage db task new := by
  cases lineage with
  | keeps continues same =>
    exact .keeps ⟨id ▸ continues.committed, guild ▸ continues.guild, default ▸ continues.default,
      fun alive => continues.live (live alive)⟩ (position.trans same)
  | moved continues wrote requested =>
    exact .moved ⟨id ▸ continues.committed, guild ▸ continues.guild, default ▸ continues.default,
      fun alive => continues.live (live alive)⟩ (guild ▸ wrote) (by rw [id, position, requested])
  | created wrote sameID sameGuild same =>
    exact .created wrote (sameID.trans id.symm) (sameGuild.trans guild.symm) (same.trans position.symm)

theorem Lineage.mono {after : GuildDatabase} {grown : GuildTask} (lineage : Lineage db task role)
    (same : after.roles.find none role.id = db.roles.find none role.id) (more : task.calls ⊆ grown.calls) :
    Lineage after grown role := by
  have continues {old : Role} (before : Continues db role old) : Continues after role old :=
    ⟨same.trans before.committed, before.guild, before.default, before.live⟩
  cases lineage with
  | keeps before position => exact .keeps (continues before) position
  | moved before wrote position => exact .moved (continues before) (more wrote) position
  | created wrote id guild position => exact .created (more wrote) id guild position

section Exec

variable {db after : GuildDatabase} {statement : Statement} {reply : statement.Reply} {positions : List (ℤ × ℕ)}

theorem lookup_of_mem (nodup : (positions.map Prod.fst).Nodup) {item : ℤ × ℕ}
    (member : item ∈ positions) : positions.lookup item.1 = some item.2 := by
  obtain ⟨before, behind, rfl⟩ := append_of_mem member
  refine lookup_eq_some_iff.mpr ⟨before, behind, rfl, fun other earlier => ?_⟩
  simp only [map_append, map_cons, nodup_append, mem_cons, forall_eq_or_imp] at nodup
  have differs := (nodup.2.2 other.1 (mem_map_of_mem earlier)).1
  simpa using Ne.symm differs

/-- A reordering that has counted as many rows as were requested holds each of them. -/
theorem moves_all {guildID : ℤ} {seen : List ℤ} (nodup : (positions.map Prod.fst).Nodup)
    (ran : db.exec limits tx (.write (.updateGuildRolePositions guildID positions seen)) = some (after, positions.length))
    {item : ℤ × ℕ} (member : item ∈ positions) :
    ∃ role, after.roles.Holds tx item.1 (some role) ∧ role.position = item.2 := by
  obtain ⟨applied, counted⟩ := exec_write_eq_some ran
  -- The rows are as many as the requested ids and have some of these, so they have all of them.
  have distinct := (db.roles.nodup_rows (some tx)).sublist (Sublist.map Role.id (filter_sublist
    (p := fun role : Role => decide (role.id ∈ seen ∧ GuildTables.UpdatesPosition guildID positions role))))
  have requested : ((((db.view (some tx)).roles.filter fun role =>
      role.id ∈ seen ∧ GuildTables.UpdatesPosition guildID positions role).map Role.id)) ⊆ positions.map Prod.fst := by
    intro roleID present
    obtain ⟨role, row, rfl⟩ := mem_map.mp present
    obtain ⟨_, _, moves⟩ : role ∈ (db.view (some tx)).roles ∧ role.id ∈ seen ∧ _ = true := by simpa using row
    simp only [GuildTables.UpdatesPosition, decide_eq_true_eq] at moves
    obtain ⟨place, found⟩ := isSome_iff_exists.mp moves.2.2.2
    exact mem_map_of_mem (mem_of_lookup found)
  have enough := counted.le
  rw [← length_map Prod.fst] at enough
  have all := (subperm_of_subset distinct requested).perm_of_length_le (enough.trans_eq (length_map ..).symm)
  obtain ⟨role, row, id⟩ := mem_map.mp (all.mem_iff.mpr (mem_map_of_mem member))
  have lookup := lookup_of_mem nodup member
  refine ⟨{ role with position := (positions.lookup role.id).getD role.position }, ?_, by simp [id, lookup]⟩
  refine apply_reaches (fun db => db.roles.Holds tx item.1 _) (mem_map_of_mem row) applied ?_ ?_
  · intro before next changed
    cases changed_of_applyChange changed with
    | role writes _ => exact id ▸ writes.holds
  · intro before change next made held changed
    obtain ⟨other, otherRow, rfl⟩ := mem_map.mp made
    cases changed_of_applyChange changed with
    | role writes _ =>
      refine writes.holds_iff.mpr ?_
      by_cases same : item.1 = other.id
      · have sameRow : role = other := by
          have here := mem_view_roles.mp (mem_of_mem_filter row)
          have there := mem_view_roles.mp (mem_of_mem_filter otherRow)
          rw [id, same, there] at here
          exact (some.inj here).symm
        subst sameRow
        exact .inl ⟨same, rfl, rfl⟩
      · exact .inr ⟨same, held⟩

end Exec

namespace PositionInvariant

section

variable (inv : PositionInvariant state)

include inv

variable (running : state.running tx = some task)

include running

/-- What a transaction sees of a role comes from a committed row or has been placed by it. -/
theorem lineage {role : Role} (found : state.store.roles.find (some tx) role.id = some role) : Lineage state.store task role := by
  rcases state.store.roles.find_cases tx role.id with ⟨value, held, same⟩ | ⟨_, same⟩
  · obtain ⟨owner, present, _, row, rfl, lineage⟩ := inv.changed _ _ _ held
    cases running.symm.trans present
    cases same.symm.trans found
    exact lineage
  · exact .keeps ⟨same.symm.trans found, rfl, rfl, id⟩ rfl

/-- A creation has listed the roles under the lock and has found its position to be free. -/
theorem of_created {new : Role} (wrote : Statement.write (.createGuildRole new) ∈ task.calls) :
    (∃ actor permissions, task.request = .createRole new.guildID actor new.id permissions) ∧
      new.guildID ∈ placing task.request task.calls ∧
      Statement.write (.lockQuotaScope (.guildRoles, new.guildID)) ∈ task.calls ∧ 0 < new.position ∧
      ∀ role, state.store.roles.find none role.id = some role → role.guildID = new.guildID → role.deleted = false →
        role.position ≠ new.position := by
  obtain ⟨entry, member, isWrite⟩ := mem_map.mp wrote
  obtain ⟨before, suffix, may⟩ := inv.audited.of_mem running member
  rw [isWrite] at may
  obtain ⟨_, _, actor, permissions, authority, roles, earlier, request, entries, owner, placed⟩ := may
  have entries : (⟨.query (.listGuildRoles new.guildID), roles⟩ :: earlier : StatementLog) <:+ task.log :=
    entries.trans ((suffix_cons ..).trans suffix)
  have looked : Statement.query (.listGuildRoles new.guildID) ∈ task.calls :=
    mem_map_of_mem (entries.subset mem_cons_self)
  obtain ⟨_, lists⟩ := inv.audited tx task running _ _ entries
  have locked : Statement.write (.lockQuotaScope (.guildRoles, new.guildID)) ∈ issued earlier := by
    rcases lists with ⟨_, _, _, _, locked⟩ | ⟨_, _, reorders⟩
    · exact locked
    · rw [request] at reorders
      cases reorders
  obtain ⟨positive, free⟩ := newRolePosition_fresh placed fun isOwner =>
    inv.belowTop tx task running _ _ _ entries (owner isOwner)
  refine ⟨⟨actor, permissions, request⟩, ?_, ?_, positive, fun role committed guild live same => ?_⟩
  · simp [request, placing, looked]
  · exact (IsSuffix.map Sigma.fst ((suffix_cons ..).trans entries)).subset locked
  · obtain ⟨listed, known, _, _, position⟩ :=
      inv.known tx task running _ _ (entries.subset mem_cons_self) role committed guild live
    exact free listed known (position.trans same)

/-- A reordering has listed the roles and has found their final positions to be distinct. -/
theorem of_moved {guildID : ℤ} {positions : List (ℤ × ℕ)} {seen : List ℤ}
    (wrote : Statement.write (.updateGuildRolePositions guildID positions seen) ∈ task.calls) :
    (∃ actor, task.request = .reorderRoles guildID actor positions) ∧ guildID ∈ reordering task.request task.calls ∧
      (∀ item ∈ positions, 0 < item.2) ∧ ∃ roles, ⟨.query (.listGuildRoles guildID), roles⟩ ∈ task.log ∧
        checkFinalPositions positions roles [] = .ok () := by
  obtain ⟨entry, member, isWrite⟩ := mem_map.mp wrote
  obtain ⟨before, suffix, may⟩ := inv.audited.of_mem running member
  rw [isWrite] at may
  obtain ⟨_, actor, roles, request, entry, valid, final⟩ := may
  have entry := ((suffix_cons ..).trans suffix).subset entry
  have looked : Statement.query (.listGuildRoles guildID) ∈ task.calls := mem_map_of_mem entry
  refine ⟨⟨actor, request⟩, ?_, (validateRolePositions_eq_ok valid).1, roles, entry, final⟩
  simp [request, reordering, looked]

/-- A transaction creates one role. -/
theorem created_unique {first second : Role} (wrote : Statement.write (.createGuildRole first) ∈ task.calls)
    (also : Statement.write (.createGuildRole second) ∈ task.calls) : first = second := by
  obtain ⟨entry, member, isFirst⟩ := mem_map.mp wrote
  obtain ⟨another, alsoMember, isSecond⟩ := mem_map.mp also
  obtain ⟨before, suffix, may⟩ := inv.audited.of_mem running member
  obtain ⟨beforeToo, suffixToo, mayToo⟩ := inv.audited.of_mem running alsoMember
  rw [isFirst] at may
  rw [isSecond] at mayToo
  have same : Statement.write (.createGuildRole first) = .write (.createGuildRole second) := by
    rcases suffix_or_suffix_of_suffix suffix suffixToo with inner | inner
    · rcases suffix_cons_iff.mp inner with new | old
      · cases new
        exact isFirst.symm.trans isSecond
      · have quiet := mayToo.1 _ (mem_map_of_mem (old.subset mem_cons_self))
        rw [isFirst] at quiet
        cases quiet
    · rcases suffix_cons_iff.mp inner with new | old
      · cases new
        exact isFirst.symm.trans isSecond
      · have quiet := may.1 _ (mem_map_of_mem (old.subset mem_cons_self))
        rw [isSecond] at quiet
        cases quiet
  cases same
  rfl

end

section Commit

variable {role another : Role}

variable (inv : PositionInvariant state) (running : state.running tx = some task)
  (found : state.store.roles.find (some tx) role.id = some role)

include inv running found

theorem positive_commit (ordinary : role.Ordinary) : 0 < role.position := by
  cases inv.lineage running found with
  | keeps continues position =>
    rw [position]
    exact inv.positive _ continues.row (continues.ordinary ordinary)
  | moved _ wrote position => exact (inv.of_moved running wrote).2.2.1 _ (mem_of_lookup position)
  | created wrote _ _ position => exact position ▸ (inv.of_created running wrote).2.2.2.1

/-- When a reordering commits, every role has the position that was checked. -/
theorem final_commit {guildID actor : ℤ} {positions : List (ℤ × ℕ)} {roles : List Role}
    (request : task.request = .reorderRoles guildID actor positions)
    (all : PlacesAll task.request task.log) (entry : ⟨.query (.listGuildRoles guildID), roles⟩ ∈ task.log)
    (guild : role.guildID = guildID) (ordinary : role.Ordinary) :
    ∃ listed ∈ roles, listed.id = role.id ∧ listed.isDefault = false ∧ finalPosition positions listed = role.position := by
  have listed {old : Role} (continues : Continues state.store role old) :
      ∃ listed ∈ roles, listed.id = role.id ∧ listed.isDefault = false ∧ listed.position = old.position := by
    obtain ⟨listed, known, id, default, position⟩ := inv.known tx task running _ _ entry old continues.row
      (continues.guild.trans guild) (continues.ordinary ordinary).1
    exact ⟨listed, known, id.trans continues.id, default.trans (continues.ordinary ordinary).2, position⟩
  cases inv.lineage running found with
  | keeps continues same =>
    obtain ⟨listed, known, id, default, position⟩ := listed continues
    refine ⟨listed, known, id, default, ?_⟩
    cases requested : positions.lookup listed.id with
    | none => rw [finalPosition, requested, getD_none, position, same]
    | some place =>
      obtain ⟨seen, wrote⟩ := all guildID actor positions request
      obtain ⟨row, held, there⟩ := inv.moved tx task running _ _ _ wrote _ (mem_of_lookup requested)
      rw [id] at held
      cases (find_of_holds held).symm.trans found
      rw [finalPosition, requested, getD_some, there]
  | moved continues wrote requested =>
    obtain ⟨listed, known, id, default, position⟩ := listed continues
    obtain ⟨⟨_, same⟩, _⟩ := inv.of_moved running wrote
    rw [request] at same
    cases same
    refine ⟨listed, known, id, default, ?_⟩
    rw [finalPosition, id, requested, getD_some]
  | created wrote _ _ _ =>
    obtain ⟨⟨_, _, creates⟩, _⟩ := inv.of_created running wrote
    rw [request] at creates
    cases creates

theorem distinct_commit (all : PlacesAll task.request task.log)
    (also : state.store.roles.find (some tx) another.id = some another) (ordinary : role.Ordinary)
    (ordinaryToo : another.Ordinary) (guild : role.guildID = another.guildID)
    (same : role.position = another.position) : role = another := by
  suffices ids : role.id = another.id by
    rw [ids, also] at found
    exact (some.inj found).symm
  have reordered {positions : List (ℤ × ℕ)} {seen : List ℤ}
      (wrote : Statement.write (.updateGuildRolePositions role.guildID positions seen) ∈ task.calls) :
      role.id = another.id := by
    obtain ⟨⟨actor, request⟩, _, _, roles, entry, final⟩ := inv.of_moved running wrote
    obtain ⟨listed, known, id, default, position⟩ := inv.final_commit running found request all entry rfl ordinary
    obtain ⟨listedToo, knownToo, idToo, defaultToo, positionToo⟩ :=
      inv.final_commit running also request all entry guild.symm ordinaryToo
    rw [← id, ← idToo]
    exact (checkFinalPositions_distinct final).2 _ known _ knownToo default defaultToo
      (position.trans (same.trans positionToo.symm))
  have created {new old current : Role} (wrote : Statement.write (.createGuildRole new) ∈ task.calls)
      (continues : Continues state.store current old) (alive : current.Ordinary) (place : current.position = old.position)
      (sameGuild : new.guildID = current.guildID) (samePosition : new.position = current.position) : False := by
    refine (inv.of_created running wrote).2.2.2.2 old continues.row (continues.guild.trans sameGuild.symm)
      (continues.ordinary alive).1 ?_
    rw [samePosition, place]
  cases inv.lineage running found with
  | moved _ wrote _ => exact reordered wrote
  | @keeps old continues place =>
    cases inv.lineage running also with
    | moved _ wrote _ => exact reordered (guild ▸ wrote)
    | @keeps oldToo continuesToo placeToo =>
      rw [← continues.id, ← continuesToo.id]
      refine congrArg Role.id (inv.distinct old oldToo continues.row continuesToo.row
        (continues.ordinary ordinary) (continuesToo.ordinary ordinaryToo) ?_ ?_)
      · rw [continues.guild, continuesToo.guild, guild]
      · rw [← place, ← placeToo, same]
    | created wrote id sameGuild position =>
      exact (created wrote continues ordinary place (sameGuild.trans guild.symm) (position.trans same.symm)).elim
  | created wrote id sameGuild position =>
    cases inv.lineage running also with
    | moved _ wrote _ => exact reordered (guild ▸ wrote)
    | keeps continues place =>
      exact (created wrote continues ordinaryToo place (sameGuild.trans guild) (position.trans same)).elim
    | created wroteToo idToo _ _ =>
      rw [← id, ← idToo, inv.created_unique running wrote wroteToo]

/-- What another transaction has listed is still all there is: the one that commits has placed no role of
the guild. -/
theorem known_commit (ne : other ≠ tx) (rivals : state.running other = some rival) {guildID : ℤ} {roles : List Role}
    (entry : ⟨.query (.listGuildRoles guildID), roles⟩ ∈ rival.log)
    (guild : role.guildID = guildID) (live : role.deleted = false) :
    ∃ listed ∈ roles, listed.id = role.id ∧ listed.isDefault = role.isDefault ∧ listed.position = role.position := by
  obtain ⟨earlier, suffix, _, lists⟩ := inv.audited.of_mem rivals entry
  have looked : Statement.query (.listGuildRoles guildID) ∈ rival.calls := mem_map_of_mem entry
  have places : guildID ∈ placing rival.request rival.calls := by
    rcases lists with ⟨_, _, _, request, _⟩ | ⟨_, _, request⟩
    · simp [request, placing, looked]
    · simp [request, placing, looked]
  cases inv.lineage running found with
  | @keeps old continues place =>
    obtain ⟨listed, known, id, default, position⟩ := inv.known other rival rivals _ _ entry old continues.row
      (continues.guild.trans guild) (continues.live live)
    exact ⟨listed, known, id.trans continues.id, default.trans continues.default, position.trans place.symm⟩
  | moved _ wrote _ =>
    rw [guild] at wrote
    exact (inv.apart tx other task rival ne running rivals guildID (inv.of_moved running wrote).2.1 places).elim
  | @created new wrote id sameGuild position =>
    obtain ⟨_, placed, locked, _⟩ := inv.of_created running wrote
    rw [sameGuild, guild] at placed locked
    rcases lists with ⟨_, _, _, _, alsoLocked⟩ | ⟨_, _, request⟩
    · have alsoLocked := (IsSuffix.map Sigma.fst ((suffix_cons ..).trans suffix)).subset alsoLocked
      exact (ne (inv.locks.unique rivals running alsoLocked locked rfl rfl)).elim
    · have reorders : guildID ∈ reordering rival.request rival.calls := by
        simp [request, reordering, looked]
      exact (inv.apart other tx rival task (Ne.symm ne) rivals running guildID reorders placed).elim

end Commit

section Exec

variable {request : GuildRequest} {log : StatementLog} {statement : Statement} {rest : statement.Reply → Program Unit}
variable {store : GuildDatabase} {reply : statement.Reply}

/-- A reordering that has written its rows writes no more roles. -/
theorem quiet_exec (inv : PositionInvariant state)
    (current : state.running tx = some ⟨request, log, .call statement rest⟩) {guildID : ℤ} {positions : List (ℤ × ℕ)}
    {seen : List ℤ} (wrote : Statement.write (.updateGuildRolePositions guildID positions seen) ∈ issued log) :
    statement.WritesRoles = false := by
  have may := (inv.disciplined _ _ current).1
  obtain ⟨⟨actor, reorders⟩, _⟩ := inv.of_moved current wrote
  unfold Statement.WritesRoles
  split
  · cases may.1 _ wrote
  · rw [reorders] at may
    cases may
  · cases may.1 _ wrote
  · rw [reorders] at may
    cases may
  · rfl

variable {roleID : ℤ} {value : Option Role} {owner : ℕ}

/-- Rows of roles that a transaction holds stay as they are, as long as it writes no roles. -/
theorem holds_exec (ran : state.store.exec limits tx statement = some (store, reply))
    (quiet : owner = tx → statement.WritesRoles = false) (held : state.store.roles.Holds owner roleID value) :
    store.roles.Holds owner roleID value := by
  rcases (roles_exec ran).pending roleID with same | ⟨free, version, written, _⟩
  · exact same.trans held
  · have loud : statement.WritesRoles = true := by cases written <;> rfl
    rw [quiet (free _ held)] at loud
    cases loud

variable (inv : PositionInvariant state)

include inv

/-- What a statement writes of a role comes from what its transaction has seen of it, or places it. -/
theorem lineage_exec (reply : statement.Reply)
    (current : state.running tx = some ⟨request, log, .call statement rest⟩)
    (written : RoleWrites (state.store.view (some tx)) statement roleID value) :
    ∃ role, value = some role ∧ Lineage state.store ⟨request, ⟨statement, reply⟩ :: log, rest reply⟩ role := by
  have seen {role : Role} (found : state.store.roles.find (some tx) role.id = some role) :
      Lineage state.store (⟨request, ⟨statement, reply⟩ :: log, rest reply⟩ : GuildTask) role :=
    (inv.lineage current found).mono rfl (subset_cons_self ..)
  cases written with
  | @creates role fresh => exact ⟨role, rfl, .created mem_cons_self rfl rfl rfl⟩
  | updates loaded =>
    have row := mem_of_find?_eq_some loaded
    exact ⟨_, rfl, (seen (mem_view_roles.mp row)).like rfl rfl rfl id rfl⟩
  | deletes loaded plain =>
    have row := mem_of_find?_eq_some loaded
    exact ⟨_, rfl, (seen (mem_view_roles.mp row)).like rfl rfl rfl (fun live => by cases live) rfl⟩
  | @moves guildID positions places role row moved =>
    simp only [GuildTables.UpdatesPosition, decide_eq_true_eq] at moved
    obtain ⟨rfl, _, _, requested⟩ := moved
    obtain ⟨place, requested⟩ := isSome_iff_exists.mp requested
    have moves {old : Role} (continues : Continues state.store role old) :
        Lineage state.store (⟨request, ⟨.write (.updateGuildRolePositions role.guildID positions places), reply⟩ :: log,
          rest reply⟩ : GuildTask) { role with position := (positions.lookup role.id).getD role.position } :=
      .moved ⟨continues.committed, continues.guild, continues.default, continues.live⟩ mem_cons_self
        (by simp [requested])
    refine ⟨_, rfl, ?_⟩
    cases inv.lineage current (mem_view_roles.mp row) with
    | keeps continues _ | moved continues _ _ => exact moves continues
    | created wrote _ _ _ => cases (inv.disciplined _ _ current).1.1 _ wrote

theorem changed_exec (current : state.running tx = some ⟨request, log, .call statement rest⟩)
    (ran : state.store.exec limits tx statement = some (store, reply))
    (held : store.roles.Holds owner roleID value) :
    ∃ task, state.running.set tx ⟨request, ⟨statement, reply⟩ :: log, rest reply⟩ owner = some task ∧
      (∃ statement ∈ task.calls, statement.WritesRoles = true) ∧ ∃ role, value = some role ∧ Lineage store task role := by
  have committed (roleID : ℤ) : store.roles.find none roleID = state.store.roles.find none roleID :=
    (roles_exec ran).find_of_ne (by simp) roleID
  rcases (roles_exec ran).holds held with before | ⟨rfl, written⟩
  · obtain ⟨task, running, wrote, role, rfl, lineage⟩ := inv.changed _ _ _ before
    refine exists_set current (fun _ => ?_)
      ⟨task, running, wrote, role, rfl, lineage.mono (committed _) (Subset.refl _)⟩
    rintro ⟨⟨write, wrote, loud⟩, role, same, lineage⟩
    exact ⟨⟨write, mem_cons_of_mem _ wrote, loud⟩, role, same, lineage.mono rfl (subset_cons_self ..)⟩
  · obtain ⟨role, rfl, lineage⟩ := inv.lineage_exec reply current written
    have loud : statement.WritesRoles = true := by cases written <;> rfl
    exact ⟨_, set_self .., ⟨statement, mem_cons_self, loud⟩, role, rfl,
      lineage.mono (committed _) (Subset.refl _)⟩

/-- A list of the roles has every committed one, for its transaction has not written any. -/
theorem known_list {guildID : ℤ} {rest : List Role → Program Unit}
    (current : state.running tx = some ⟨request, log, .call (.query (.listGuildRoles guildID)) rest⟩) {role : Role}
    (committed : state.store.roles.find none role.id = some role) (guild : role.guildID = guildID)
    (live : role.deleted = false) : role ∈ (state.store.view (some tx)).listGuildRoles guildID := by
  have quiet : ∀ value, ¬ state.store.roles.Holds tx role.id value := by
    intro value held
    obtain ⟨task, running, ⟨statement, wrote, loud⟩, _⟩ := inv.changed _ _ _ held
    cases current.symm.trans running
    rw [(inv.disciplined _ _ current).1.1 _ wrote] at loud
    cases loud
  have found : state.store.roles.find (some tx) role.id = some role := by
    rw [find_of_not_holds quiet, committed]
  simp only [GuildTables.listGuildRoles, mem_orderBy, mem_filter, decide_eq_true_eq]
  exact ⟨mem_view_roles.mpr found, guild, live⟩

theorem exec (current : state.running tx = some ⟨request, log, .call statement rest⟩)
    (ran : state.store.exec limits tx statement = some (store, reply)) (top : ListsBelowTop state tx)
    {after : GuildServiceState}
    (isAfter : after = { state with store, running := state.running.set tx ⟨request, ⟨statement, reply⟩ :: log, rest reply⟩ })
    (listed : Listed after)
    (disciplined : Disciplined PlacesAllowed (fun request log _ => PlacesAll request log) after)
    (audited : Audited PlacesAllowed after) (apart : Apart reordering placing after)
    (locks : LocksHeld quotas quotaScope after) : PositionInvariant after := by
  have committed (roleID : ℤ) : store.roles.find none roleID = state.store.roles.find none roleID :=
    (roles_exec ran).find_of_ne (by simp) roleID
  subst isAfter
  refine ⟨listed, disciplined, audited, apart, locks, ?_, ?_, fun _ _ _ held => inv.changed_exec current ran held, ?_, ?_, ?_⟩
  · simp only [committed]
    exact inv.positive
  · simp only [committed]
    exact inv.distinct
  · simp only [committed]
    refine inv.known.set fun guildID roles entry role found guild live => ?_
    rcases mem_cons.mp entry with new | old
    · cases new
      obtain ⟨rfl, listing⟩ := exec_query_eq_some.mp ran
      refine ⟨role, ?_, rfl, rfl, rfl⟩
      rw [listing]
      exact inv.known_list current found guild live
    · exact inv.known _ _ current guildID roles old role found guild live
  · refine inv.belowTop.set fun guildID roles earlier suffix owner => ?_
    rcases suffix_cons_iff.mp suffix with new | old
    · cases new
      obtain ⟨rfl, rfl⟩ := exec_query_eq_some.mp ran
      exact top _ current owner _ rfl guildID rfl
    · exact inv.belowTop _ _ current guildID roles earlier old owner
  · refine .set_of ?_ fun other task ne running guildID positions seen wrote item member => ?_
    · intro guildID positions seen wrote item member
      rcases mem_cons.mp wrote with new | old
      · cases new
        obtain ⟨_, _, _, _, _, valid, _⟩ := (inv.disciplined _ _ current).1
        exact moves_all (validateRolePositions_eq_ok valid).2.1 ran member
      · obtain ⟨role, held, position⟩ := inv.moved _ _ current guildID positions seen old item member
        exact ⟨role, holds_exec ran (fun _ => inv.quiet_exec current (mem_map_of_mem old)) held, position⟩
    · obtain ⟨role, held, position⟩ := inv.moved other task running guildID positions seen wrote item member
      exact ⟨role, holds_exec ran (fun same => (ne same).elim) held, position⟩

end Exec

theorem step {event : ServiceEvent GuildRequest} (inv : PositionInvariant state) (kept : PlacedApart state event)
    (step : (guildService limits).machine.step state event = some next) : PositionInvariant next := by
  have listed := listed_step inv.listed step
  have disciplined := disciplined_step script_places inv.disciplined step
  have audited := audited_step inv.disciplined inv.audited step
  have apart : Apart reordering placing next :=
    apart_step (fun request => by cases request <;> rfl) (fun request => by cases request <;> rfl) inv.listed
      inv.apart kept.1 step
  have locks := locksHeld_step (takesQuotas limits) inv.locks step
  cases transition_step step with
  | @begin id request fresh =>
    refine ⟨listed, disciplined, audited, apart, locks, inv.positive, inv.distinct, fun tx roleID value held => ?_,
      inv.known.set (by simp), inv.belowTop.set (by simp), inv.moved.set (by simp)⟩
    exact inv.listed.exists_begin fresh (inv.changed tx roleID value held)
  | exec current ran => exact inv.exec current ran kept.2 rfl listed disciplined audited apart locks
  | @commit id request log value current =>
    have all : PlacesAll request log := inv.disciplined id _ current
    refine ⟨listed, disciplined, audited, apart, locks, fun role found ordinary => inv.positive_commit current found ordinary,
      fun role other found also => inv.distinct_commit current found all also, fun tx roleID value held => ?_, ?_,
      inv.belowTop.drop id, .drop_of fun other task ne running guildID positions seen wrote item member => ?_⟩
    · obtain ⟨before, ne⟩ := holds_commit.mp held
      obtain ⟨task, running, wrote, role, rfl, lineage⟩ := inv.changed tx roleID value before
      refine ⟨task, (drop_of_ne _ ne).trans running, wrote, role, rfl, ?_⟩
      have key : role.id = roleID := state.store.roles.keyed roleID role (.inr ⟨tx, before⟩)
      have same : state.store.roles.find (some id) role.id = state.store.roles.find none role.id :=
        find_of_not_holds fun _ also => ne (also.unique (key ▸ before)).1
      exact lineage.mono same (Subset.refl _)
    · exact .drop_of fun other task ne running guildID roles entry role found => inv.known_commit current found ne running entry
    · obtain ⟨role, held, position⟩ := inv.moved other task running guildID positions seen wrote item member
      exact ⟨role, holds_commit.mpr ⟨held, ne⟩, position⟩
  | @rollback id task current =>
    refine ⟨listed, disciplined, audited, apart, locks, inv.positive, inv.distinct, fun tx roleID value held => ?_,
      inv.known.drop id, inv.belowTop.drop id, .drop_of fun other task ne running guildID positions seen wrote item member => ?_⟩
    · obtain ⟨before, ne⟩ := holds_rollback.mp held
      obtain ⟨task, running, wrote, role, rfl, lineage⟩ := inv.changed tx roleID value before
      exact ⟨task, (drop_of_ne _ ne).trans running, wrote, role, rfl, lineage.mono rfl (Subset.refl _)⟩
    · obtain ⟨role, held, position⟩ := inv.moved other task running guildID positions seen wrote item member
      exact ⟨role, holds_rollback.mpr ⟨held, ne⟩, position⟩

end PositionInvariant

theorem positionInvariant_initial {tables : GuildTables} (distinct : (tables.initial.store.view none).PositionsDistinct) :
    PositionInvariant tables.initial where
  listed := all_empty _
  disciplined := all_empty _
  audited := all_empty _
  apart _ _ _ _ _ present := by cases present
  locks := all_empty _
  positive role found := distinct.1 role (mem_rows.mpr found)
  distinct role other found also := distinct.2 role (mem_rows.mpr found) other (mem_rows.mpr also)
  changed _ _ _ held := (not_holds_ofRows _ held).elim
  known := all_empty _
  belowTop := all_empty _
  moved := all_empty _

end Invariant

/-- In every run in which reorderings are kept apart from each other and from creations, and no owner
creates a role above the highest position, the roles of a guild have distinct positive positions. -/
theorem role_positions_distinct {limits : GuildLimits} {tables : GuildTables} {final : GuildServiceState}
    {events : List (ServiceEvent GuildRequest)} (distinct : (tables.initial.store.view none).PositionsDistinct)
    (run : (guildService limits).machine.run tables.initial events = some final)
    (kept : (guildService limits).machine.Along PlacedApart tables.initial events) :
    (final.store.view none).PositionsDistinct := by
  have inv : PositionInvariant final :=
    Machine.invariant_along (fun _ _ _ inv kept step => inv.step kept step) run kept (positionInvariant_initial distinct)
  exact ⟨fun role row => inv.positive role (RowTable.mem_rows.mp row),
    fun role row other also => inv.distinct role other (RowTable.mem_rows.mp row) (RowTable.mem_rows.mp also)⟩

/-- A guild with one role besides the default one. -/
def oneRoleGuild : GuildTables where
  guilds := [{ id := 10, ownerID := 1 }]
  members := [⟨10, 1, false⟩]
  roles := [{ id := 10, guildID := 10, permissions := permissionViewChannel, position := 0, isDefault := true },
    { id := 20, guildID := 10, permissions := permissionViewChannel, position := 1 }]

theorem oneRoleGuild_distinct : (oneRoleGuild.initial.store.view none).PositionsDistinct := by
  unfold GuildTables.PositionsDistinct
  decide

/-- The owner creates role 30, and then moves role 20 above it. -/
def reorderAfterCreation : List (ServiceEvent GuildRequest) :=
  .begin 0 (.createRole 10 1 30 0) :: List.replicate 5 (.exec 0) ++
    .commit 0 :: .begin 1 (.reorderRoles 10 1 [(20, 3)]) :: List.replicate 4 (.exec 1) ++ [.commit 1]

theorem reorderAfterCreation_distinct : ∃ final,
    (guildService {}).machine.run oneRoleGuild.initial reorderAfterCreation = some final ∧
      ((final.store.view none).listGuildRoles 10).map (fun role => (role.id, role.position)) = [(20, 3), (30, 2), (10, 0)] ∧
      (final.store.view none).PositionsDistinct := by
  refine Machine.exists_run rfl fun run => ⟨by decide, ?_⟩
  exact role_positions_distinct oneRoleGuild_distinct run (by decide)

/-- A reordering lists the roles; the owner creates role 30 at position 2; role 20 is moved to it. -/
def creationDuringReorder : List (ServiceEvent GuildRequest) :=
  .begin 0 (.reorderRoles 10 1 [(20, 2)]) :: .exec 0 :: .exec 0 :: .begin 1 (.createRole 10 1 30 0) ::
    List.replicate 5 (.exec 1) ++ [.commit 1, .exec 0, .exec 0, .commit 0]

/-- Role 20 is moved to the highest position, and then the owner creates role 30. -/
def creationAtTop : List (ServiceEvent GuildRequest) :=
  .begin 0 (.reorderRoles 10 1 [(20, maxInt32)]) :: List.replicate 4 (.exec 0) ++
    .commit 0 :: .begin 1 (.createRole 10 1 30 0) :: List.replicate 5 (.exec 1) ++ [.commit 1]

/-- Two roles of a guild come to stand at one position, by a race or at the highest position. -/
theorem roles_share_position :
    (oneRoleGuild.initial.store.view none).PositionsDistinct ∧
      (∃ final, (guildService {}).machine.run oneRoleGuild.initial creationDuringReorder = some final ∧
        ((final.store.view none).listGuildRoles 10).map (fun role => (role.id, role.position)) =
          [(20, 2), (30, 2), (10, 0)] ∧ ¬ (final.store.view none).PositionsDistinct) ∧
      ∃ final, (guildService {}).machine.run oneRoleGuild.initial creationAtTop = some final ∧
        ((final.store.view none).listGuildRoles 10).map (fun role => (role.id, role.position)) =
          [(20, maxInt32), (30, maxInt32), (10, 0)] ∧ ¬ (final.store.view none).PositionsDistinct := by
  refine ⟨oneRoleGuild_distinct, ⟨_, rfl, by decide, ?_⟩, ⟨_, rfl, by decide, ?_⟩⟩
  · unfold GuildTables.PositionsDistinct
    decide
  · unfold GuildTables.PositionsDistinct
    decide

end Cordis.Guild
