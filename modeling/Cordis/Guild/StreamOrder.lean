import Cordis.Guild.RevisionOrder

/-! # Every guild's stream is in the order of its access revisions

The invariant of the store: the committed part of every stream is in order, every committed revision is
one that the guild's committed row has reached, an uncommitted row of a guild is no lower than the
committed one, and every transaction is sound.
-/

namespace Cordis.Guild

open Function
open Outbox (Draft Record Stream Tables inStream)
open LockedTable Outbox.Tables Pool Option

section Tables

variable {tables next : Tables EventBody} {tx other : ℕ} {key : String}

variable (tables tx key)

/-- The transaction has locked the row of the stream. -/
def Locked : Prop :=
  ∃ stream, tables.streams.pending key = some (tx, stream)

def view : StreamView where
  past key := bodies key tables.history
  rows := tables.inserted tx
  holds := Locked tables tx
  reserving := (tables.reserved tx).map Prod.fst

variable {tables tx key}

theorem Locked.unique (first : Locked tables tx key) (second : Locked tables other key) : other = tx := by
  obtain ⟨_, mine⟩ := first
  obtain ⟨_, theirs⟩ := second
  cases mine.symm.trans theirs
  rfl

theorem bodies_append (key : String) (first second : List (Record EventBody)) :
    bodies key (first ++ second) = bodies key first ++ bodies key second := by
  simp [bodies]

/-- Whoever has not locked a stream has put nothing into it. -/
theorem bodies_inserted_eq_nil (sound : tables.Sound) (unlocked : ¬ Locked tables tx key) :
    bodies key (tables.inserted tx) = [] := by
  unfold bodies
  rw [sound.written_eq_nil fun stream held => unlocked ⟨stream, held⟩, List.map_nil]

theorem bodies_records (other : String) (shard sequence : ℕ) (drafts : List (Draft EventBody)) :
    bodies other (Outbox.records key shard sequence drafts) =
      if other = key then drafts.map (·.body) else [] := by
  unfold bodies
  rw [Outbox.inStream_records]
  split_ifs
  · exact Outbox.bodies_records ..
  · rfl

/-- The step locks the stream for the transaction and changes nothing else of what is written. -/
structure Locks (tables next : Tables EventBody) (tx : ℕ) (key : String) : Prop where
  history : next.history = tables.history
  events : next.events = tables.events
  reserved : ∀ other, other ≠ tx → next.reserved other = tables.reserved other
  kept : ∀ other stream, Locked tables other stream → Locked next other stream
  gained : ∀ other stream, Locked next other stream → Locked tables other stream ∨ other = tx ∧ stream = key

theorem locks_write {streams : LockedTable ℕ String Stream} {row : Stream}
    (written : tables.streams.write tx key row = some streams) (stream : String) :
    (∀ other, (∃ row, tables.streams.pending stream = some (other, row)) →
      ∃ row, streams.pending stream = some (other, row)) ∧
    (∀ other, (∃ row, streams.pending stream = some (other, row)) →
      (∃ row, tables.streams.pending stream = some (other, row)) ∨ other = tx ∧ stream = key) := by
  obtain ⟨free, rfl⟩ := write_eq_some.mp written
  by_cases same : stream = key
  · subst same
    constructor
    · rintro other ⟨old, held⟩
      obtain rfl : other = tx := free _ held
      exact ⟨row, by simp⟩
    · rintro other ⟨now, held⟩
      simp only [update_self, some.injEq, Prod.mk.injEq] at held
      exact .inr ⟨held.1.symm, rfl⟩
  · simp only [update_of_ne same]
    exact ⟨fun _ held => held, fun _ held => .inl held⟩

theorem locks_ensureStream {shard : ℕ} (ensured : tables.ensureStream tx key shard = some next) :
    Locks tables next tx key ∧ next.reserved = tables.reserved := by
  unfold ensureStream at ensured
  split at ensured
  · cases ensured
    exact ⟨⟨rfl, rfl, fun _ _ => rfl, fun _ _ held => held, fun _ _ held => .inl held⟩, rfl⟩
  · obtain ⟨streams, written, rfl⟩ := map_eq_some_iff.mp ensured
    exact ⟨⟨rfl, rfl, fun _ _ => rfl, fun other stream => (locks_write written stream).1 other,
      fun other stream => (locks_write written stream).2 other⟩, rfl⟩

theorem locks_reserveSequences {count : ℕ} (reserved : tables.reserveSequences tx key count = some next) :
    Locks tables next tx key ∧ Locked next tx key ∧ (next.reserved tx).map Prod.fst = some key := by
  unfold reserveSequences at reserved
  split at reserved
  · next stream idle read =>
    split_ifs at reserved with positive
    obtain ⟨streams, written, rfl⟩ := map_eq_some_iff.mp reserved
    refine ⟨⟨rfl, rfl, fun other ne => by simp [Pool.set, ne], fun other stream => (locks_write written stream).1 other,
      fun other stream => (locks_write written stream).2 other⟩, ?_, by simp [Pool.set]⟩
    obtain ⟨_, rfl⟩ := write_eq_some.mp written
    exact ⟨_, update_self ..⟩
  · cases reserved

end Tables

structure GuildStore.Sound (store : GuildStore) : Prop where
  outbox : store.outbox.Sound
  rising : ∀ guildID tx row, store.guilds.pending guildID = some (tx, row) →
    ∀ value, Reaches (store.guilds.committed guildID) value → value ≤ row.accessRevision
  history : ∀ record ∈ store.outbox.history,
    record.streamKey = streamKey record.body.guildID ∧ record.body.Sound store.guilds.committed
  chain : ∀ key, Chain (bodies key store.outbox.history)
  txs : ∀ tx, TxSound (view store.outbox tx) (store.guilds.read tx) ((store.txs tx).getD {})

namespace GuildStore.Sound

variable {store next : GuildStore} {tx : ℕ} {state : GuildTx} (sound : store.Sound)

include sound

variable {guildID : ℤ} {bumps : List (ℤ × ℕ)} {event : StreamEvent} {outbox : Tables EventBody} {key : String}

/-- A transaction reads no less than what is committed. -/
theorem reaches_read (tx : ℕ) {value : ℕ} (reached : Reaches (store.guilds.committed guildID) value) :
    Reaches (store.guilds.read tx guildID) value := by
  rcases store.guilds.read_cases tx guildID with ⟨row, held, read⟩ | ⟨_, read⟩
  · rw [read]
    exact ⟨row, rfl, sound.rising guildID tx row held value reached⟩
  · rwa [read]

theorem txSound (found : store.txs tx = some state) : TxSound (view store.outbox tx) (store.guilds.read tx) state := by
  have sound := sound.txs tx
  rwa [found] at sound

theorem setTx (kept : TxSound (view store.outbox tx) (store.guilds.read tx) state) : (store.setTx tx state).Sound where
  outbox := sound.outbox
  rising := sound.rising
  history := sound.history
  chain := sound.chain
  txs other := by
    by_cases self : other = tx
    · subst self
      simpa [GuildStore.setTx, Pool.set] using kept
    · simpa [GuildStore.setTx, Pool.set, self] using sound.txs other

/-- A row of a guild is written with a revision that is no lower, and its bump, if any, is noted. -/
theorem writeGuild {row : RevisionRow} {earlier : List (ℤ × ℕ)}
    (found : store.txs tx = some ⟨.mutating, earlier⟩)
    (written : store.writeGuild tx ⟨.mutating, earlier⟩ guildID row bumps = some next)
    (higher : ∀ value, Reaches (store.guilds.read tx guildID) value → value ≤ row.accessRevision)
    (noted : ∀ bump ∈ bumps, bump ∈ earlier ∨ bump.1 = guildID ∧ bump.2 ≤ row.accessRevision) : next.Sound := by
  obtain ⟨guilds, write, rfl⟩ := map_eq_some_iff.mp written
  have reads := read_write write
  have committed := committed_write write
  have rises (reader : ℕ) (id : ℤ) (value : ℕ) (reached : Reaches (store.guilds.read reader id) value) :
      Reaches (guilds.read reader id) value := by
    rw [reads]
    split_ifs with mine
    · obtain ⟨rfl, rfl⟩ := mine
      exact ⟨row, rfl, higher value reached⟩
    · exact reached
  have frame (reader : ℕ) (old : GuildTx)
      (before : TxSound (view store.outbox reader) (store.guilds.read reader) old) :
      TxSound (view store.outbox reader) (guilds.read reader) old :=
    before.mono (fun _ _ => rfl) rfl (fun _ => Iff.rfl) rfl (rises reader)
  have between : ({ store with guilds } : GuildStore).Sound := by
    refine ⟨sound.outbox, ?_, ?_, sound.chain, fun reader => frame reader _ (sound.txs reader)⟩
    · intro id owner version held value reached
      obtain ⟨free, rfl⟩ := write_eq_some.mp write
      by_cases same : id = guildID
      · subst same
        simp only [update_self, some.injEq, Prod.mk.injEq] at held
        obtain ⟨rfl, rfl⟩ := held
        exact higher value (sound.reaches_read tx reached)
      · exact sound.rising id owner version (by simpa [update_of_ne same] using held) value reached
    · intro record member
      rw [committed]
      exact sound.history record member
  have mine := frame tx _ (sound.txSound found)
  refine between.setTx ⟨fun bump member => ?_, mine.inserted, trivial, mine.chain⟩
  rcases noted bump member with old | ⟨rfl, low⟩
  · exact mine.bumps bump old
  · exact ⟨row, by simp [reads], low⟩

theorem bump {deleted : RevisionRow → Bool} (found : store.txs tx = some ⟨.mutating, bumps⟩)
    (bumped : store.bump tx ⟨.mutating, bumps⟩ guildID deleted = some next) : next.Sound := by
  unfold GuildStore.bump at bumped
  split at bumped
  · cases bumped
    exact sound
  · next row read =>
    refine sound.writeGuild found bumped ?_ ?_
    · rintro value ⟨_, same, low⟩
      cases read.symm.trans same
      exact Nat.le_succ_of_le low
    · intro entry member
      rcases List.mem_cons.mp member with rfl | old
      · exact .inr ⟨rfl, le_rfl⟩
      · exact .inl old

theorem stepMutation (found : store.txs tx = some ⟨.mutating, bumps⟩)
    (stepped : store.stepMutation tx ⟨.mutating, bumps⟩ event = some next) : next.Sound := by
  unfold GuildStore.stepMutation at stepped
  split at stepped
  · split at stepped
    · next absent =>
      refine sound.writeGuild found stepped ?_ fun _ old => .inl old
      rintro value ⟨_, read, _⟩
      cases absent.symm.trans read
    · cases stepped
  · obtain ⟨row, read, written⟩ := bind_eq_some_iff.mp stepped
    refine sound.writeGuild found written ?_ fun _ old => .inl old
    rintro value ⟨_, same, low⟩
    cases read.symm.trans same
    exact low
  · exact sound.bump found stepped
  · split at stepped
    · split_ifs at stepped
      exact sound.bump found stepped
    · cases stepped
  · next events =>
    cases stepped
    have mine := sound.txSound found
    exact sound.setTx ⟨mine.bumps, mine.inserted, keyed_groupByStream events, mine.chain⟩
  · cases stepped

/-- A transaction locks a stream, with nothing made for it yet. -/
theorem lock {phase : TxPhase} (found : store.txs tx = some state)
    (next : outbox.Sound) (locks : Locks store.outbox outbox tx key) (before : ∀ key, state.phase.made key = [])
    (after : ∀ key, phase.made key = [])
    (phased : PhaseSound (view outbox tx) (store.guilds.read tx) { state with phase }) :
    ({ store with outbox }.setTx tx { state with phase }).Sound := by
  obtain ⟨history, events, reserved, kept, gained⟩ := locks
  have inserted (other : ℕ) : outbox.inserted other = store.outbox.inserted other := by
    simp only [Tables.inserted, events]
  have mine := sound.txSound found
  have chain (stream : String) (held : Locked outbox tx stream) :
      Chain ((view outbox tx).timeline phase stream) := by
    simp only [StreamView.timeline, view, after, history, inserted, List.append_nil]
    by_cases old : Locked store.outbox tx stream
    · simpa only [StreamView.timeline, view, before, List.append_nil] using mine.chain stream old
    · rw [bodies_inserted_eq_nil sound.outbox old, List.append_nil]
      exact sound.chain stream
  have rows : (view outbox tx).rows = (view store.outbox tx).rows := inserted tx
  refine ⟨next, sound.rising, history ▸ sound.history, fun stream => history ▸ sound.chain stream, fun other => ?_⟩
  by_cases self : other = tx
  · subst self
    simp only [GuildStore.setTx, Pool.set, update_self, getD_some]
    exact ⟨mine.bumps, rows ▸ mine.inserted, phased, chain⟩
  · simp only [GuildStore.setTx, Pool.set, update_of_ne self]
    refine (sound.txs other).mono ?_ (inserted other) (fun stream => ⟨fun held => ?_, kept other stream⟩) ?_
      fun _ _ reached => reached
    · intro stream _
      simp only [view, history]
    · exact (gained other stream held).resolve_right fun new => self new.1
    · simp only [view, reserved other self]

variable {groups : List (String × List GuildEvent)} {made : List (Draft EventBody)}

/-- The revision for an event is one read before in this transaction, or read now while the stream is
locked. -/
theorem record {event : GuildEvent} {events : List GuildEvent} {revisions cache : List (ℤ × ℕ)}
    {accessRevision : Option ℕ}
    (found : store.txs tx = some ⟨.recording key (event :: events) revisions made groups, bumps⟩)
    (read : store.revisionFor tx revisions event = some (accessRevision, cache)) :
    (store.setTx tx
      ⟨.recording key events cache (made ++ [event.draft accessRevision bumps]) groups, bumps⟩).Sound := by
  have mine := sound.txSound found
  obtain ⟨_, _, keyed, drafts, cached⟩ := mine.phase
  have stream : streamKey event.guildID = key := keyed (key, event :: events) List.mem_cons_self event List.mem_cons_self
  unfold revisionFor at read
  split_ifs at read with deletion
  · cases read
    exact sound.setTx (mine.record (fun other => absurd deletion other) (fun _ none => by cases none)
      fun _ _ => .inr ⟨rfl, rfl⟩)
  · split at read
    · next revision known =>
      cases read
      refine sound.setTx (mine.record (fun _ => rfl) ?_ fun other same => .inl (known.symm.trans same))
      rintro _ ⟨⟩
      exact cached event.guildID revision known stream
    · split at read
      · next row current =>
        split_ifs at read
        cases read
        refine sound.setTx (mine.record (fun _ => rfl) ?_ fun revision same => .inl (by simpa using same))
        rintro _ ⟨⟩
        have low (value) (reached : Reaches (store.guilds.read tx event.guildID) value) :
            value ≤ row.accessRevision := by
          obtain ⟨_, same, low⟩ := reached
          cases current.symm.trans same
          exact low
        refine ⟨fun body member value inside => ?_, fun value bumped => low value (mine.bumps _ bumped),
          ⟨row, current, le_rfl⟩⟩
        -- Every event of the stream is one of this guild, and its revisions are ones this transaction reads.
        have body : streamKey body.guildID = key ∧ body.Sound (store.guilds.read tx) := by
          rcases List.mem_append.mp member with earlier | new
          · rcases List.mem_append.mp earlier with old | own
            · obtain ⟨record, listed, rfl⟩ := List.mem_map.mp old
              obtain ⟨stored, same⟩ := Outbox.mem_inStream.mp listed
              obtain ⟨named, settled⟩ := sound.history record stored
              exact ⟨named.symm.trans same, settled.mono fun _ _ => sound.reaches_read tx⟩
            · obtain ⟨record, listed, rfl⟩ := List.mem_map.mp own
              obtain ⟨stored, same⟩ := Outbox.mem_inStream.mp listed
              obtain ⟨named, settled⟩ := mine.inserted record stored
              exact ⟨named.symm.trans same, settled⟩
          · simp only [TxPhase.made, ↓reduceIte, List.mem_map] at new
            obtain ⟨draft, new, rfl⟩ := new
            exact drafts draft new
        refine low value ?_
        rw [← streamKey_injective (body.1.trans stream.symm)]
        exact body.2.reached value inside
      · cases read

/-- The records made for a stream become rows of it. -/
theorem insertOutbox {revisions : List (ℤ × ℕ)}
    (found : store.txs tx = some ⟨.recording key [] revisions made groups, bumps⟩)
    (inserted : store.outbox.insertBatch tx made = some outbox) :
    ({ store with outbox }.setTx tx ⟨.enqueueing groups, bumps⟩).Sound := by
  have next := sound.outbox.insertBatch inserted
  have mine := sound.txSound found
  obtain ⟨_, reserving, keyed, drafts, _⟩ := mine.phase
  unfold Tables.insertBatch at inserted
  split at inserted
  · cases inserted
  · next stream range reserved =>
    obtain rfl : stream = key := by simpa [view, reserved] using reserving
    split_ifs at inserted
    cases inserted
    refine ⟨next, sound.rising, sound.history, sound.chain, fun other => ?_⟩
    by_cases self : other = tx
    · subst self
      simp only [GuildStore.setTx, Pool.set, update_self, getD_some]
      refine ⟨mine.bumps, fun record member => ?_, fun group member => keyed group (List.mem_cons_of_mem _ member), ?_⟩
      · simp only [view, Tables.inserted_insert, ↓reduceIte] at member
        rcases List.mem_append.mp member with old | new
        · exact mine.inserted record old
        · have body := List.mem_map_of_mem (f := (·.body)) new
          rw [Outbox.bodies_records] at body
          obtain ⟨draft, listed, same⟩ := List.mem_map.mp body
          obtain ⟨named, settled⟩ := drafts draft listed
          exact ⟨(Outbox.of_mem_records new).1.trans (same ▸ named.symm), same ▸ settled⟩
      · intro other held
        have chain := mine.chain other held
        simp only [StreamView.timeline, view, TxPhase.made, Tables.inserted_insert, Tables.history_insert, ↓reduceIte,
          bodies_append, bodies_records, List.append_nil, ← List.append_assoc] at chain ⊢
        by_cases same : other = stream
        · subst same
          simpa using chain
        · simpa [same, Ne.symm same] using chain
    · simp only [GuildStore.setTx, Pool.set, update_of_ne self]
      refine (sound.txs other).mono (fun _ _ => rfl) ?_ (fun _ => Iff.rfl) ?_ fun _ _ reached => reached
      · simp only [view, Tables.inserted_insert, self, ↓reduceIte]
      · simp only [view, Tables.insert, Pool.drop, update_of_ne self]

theorem stepEnqueue (found : store.txs tx = some state)
    (stepped : store.stepEnqueue tx state event = some next) : next.Sound := by
  obtain ⟨phase, bumps⟩ := state
  have mine := sound.txSound found
  unfold GuildStore.stepEnqueue at stepped
  split at stepped
  · split at stepped
    · next shardCount _ key events groups enqueueing =>
      obtain rfl : phase = _ := enqueueing
      obtain ⟨shard, _, stepped⟩ := bind_eq_some_iff.mp stepped
      obtain ⟨outbox, ensured, rfl⟩ := map_eq_some_iff.mp stepped
      obtain ⟨locks, _⟩ := locks_ensureStream ensured
      exact sound.lock found (sound.outbox.ensureStream ensured) locks (fun _ => rfl) (fun _ => rfl) mine.phase
    · cases stepped
  · split at stepped
    · next _ key events groups ensured =>
      obtain rfl : phase = _ := ensured
      obtain ⟨outbox, reserved, rfl⟩ := map_eq_some_iff.mp stepped
      obtain ⟨locks, held, reserving⟩ := locks_reserveSequences reserved
      refine sound.lock found (sound.outbox.reserveSequences reserved) locks (fun _ => rfl) ?_ ?_
      · intro other
        simp [TxPhase.made]
      · have keyed : Keyed ((key, events) :: groups) := mine.phase
        exact ⟨held, reserving, keyed, fun _ member => by simp at member, fun _ _ known => by simp at known⟩
    · cases stepped
  · split at stepped
    · next _ key event events revisions made groups recording =>
      obtain rfl : phase = _ := recording
      obtain ⟨⟨accessRevision, cache⟩, read, rfl⟩ := map_eq_some_iff.mp stepped
      exact sound.record found read
    · cases stepped
  · split at stepped
    · next _ key revisions made groups recording =>
      obtain rfl : phase = _ := recording
      obtain ⟨outbox, inserted, rfl⟩ := map_eq_some_iff.mp stepped
      exact sound.insertOutbox found inserted
    · cases stepped
  · cases stepped

omit sound in
/-- Nobody holds a lock or a row for a transaction that has ended. -/
theorem txSound_ended {reads : ℤ → Option RevisionRow} (events : ∀ row ∈ outbox.events, row.owner ≠ some tx)
    (streams : outbox.streams.pending = store.outbox.streams.release tx) : TxSound (view outbox tx) reads {} := by
  refine txSound_new ?_ ?_
  · refine List.eq_nil_iff_forall_not_mem.mpr fun record member => ?_
    obtain ⟨row, stored, owner, _⟩ := mem_inserted.mp member
    exact events row stored owner
  · rintro key ⟨stream, held⟩
    rw [streams] at held
    exact (release_eq_some.mp held).2 rfl

omit sound in
theorem locked_release {other : ℕ} (ne : other ≠ tx)
    (streams : outbox.streams.pending = store.outbox.streams.release tx) (key : String) :
    Locked outbox other key ↔ Locked store.outbox other key := by
  unfold Locked
  simp [streams, release_eq_some, ne]

theorem rollback (tx : ℕ) : GuildStore.Sound
    { guilds := store.guilds.rollback tx, outbox := store.outbox.rollback tx, txs := store.txs.drop tx } where
  outbox := sound.outbox.rollback tx
  rising guildID owner row held := sound.rising guildID owner row (release_eq_some.mp held).1
  history := sound.history
  chain := sound.chain
  txs other := by
    by_cases self : other = tx
    · subst self
      simp only [drop, update_self, getD_none]
      exact txSound_ended (fun row member => by simpa using (List.mem_filter.mp member).2) rfl
    · simp only [drop, update_of_ne self]
      refine (sound.txs other).mono (fun _ _ => rfl) (inserted_rollback _ self) (locked_release self rfl) ?_ ?_
      · simp only [view, Tables.rollback, Pool.drop, update_of_ne self]
      · intro guildID value reached
        rwa [read_rollback self]

/-- What a transaction has added to the streams it holds comes after everything committed there, and its
revisions are those of the guilds' rows that it commits with them. -/
theorem commit (made : ∀ key, ((store.txs tx).getD {}).phase.made key = [])
    (committed : store.outbox.commit tx = some outbox) :
    GuildStore.Sound { guilds := store.guilds.commit tx, outbox, txs := store.txs.drop tx } := by
  have next := sound.outbox.commit committed
  have mine := sound.txs tx
  unfold Tables.commit at committed
  split at committed
  · cases committed
  cases committed
  refine ⟨next, ?_, ?_, ?_, fun other => ?_⟩
  · intro guildID owner row held value reached
    obtain ⟨held, ne⟩ := release_eq_some.mp held
    refine sound.rising guildID owner row held value ?_
    have same : (store.guilds.commit tx).committed guildID = store.guilds.committed guildID :=
      read_of_other held ne
    rwa [same] at reached
  · intro record member
    rcases List.mem_append.mp member with old | new
    · obtain ⟨named, settled⟩ := sound.history record old
      exact ⟨named, settled.mono fun _ _ => sound.reaches_read tx⟩
    · exact mine.inserted record new
  · intro key
    simp only [history_settle, bodies_append]
    by_cases held : Locked store.outbox tx key
    · simpa only [StreamView.timeline, view, made, List.append_nil] using mine.chain key held
    · rw [bodies_inserted_eq_nil sound.outbox held, List.append_nil]
      exact sound.chain key
  · by_cases self : other = tx
    · subst self
      simp only [drop, update_self, getD_none]
      refine txSound_ended (fun row member owner => ?_) rfl
      obtain ⟨old, _, rfl⟩ := List.mem_map.mp member
      split_ifs at owner with mine
      exact mine owner
    · simp only [drop, update_of_ne self]
      refine (sound.txs other).mono ?_ (inserted_settle _ self) (locked_release self rfl) rfl ?_
      · intro key held
        have unlocked : ¬ Locked store.outbox tx key := fun locked => self (locked.unique held)
        simp [view, history_settle, bodies_append, bodies_inserted_eq_nil sound.outbox unlocked]
      · intro guildID value reached
        rcases read_commit store.guilds self guildID with same | ⟨before, after⟩
        · rwa [same]
        · rw [after]
          rw [before] at reached
          exact sound.reaches_read tx reached

theorem step (stepped : store.step event = some next) : next.Sound := by
  unfold GuildStore.step at stepped
  split at stepped
  · next tx =>
    split_ifs at stepped with absent
    cases stepped
    have fresh := sound.txs tx
    rw [isNone_iff_eq_none.mp absent] at fresh
    exact sound.setTx fresh
  iterate 5
    · split at stepped
      · next found => exact sound.stepMutation found stepped
      · cases stepped
  iterate 4
    · obtain ⟨state, found, stepped⟩ := bind_eq_some_iff.mp stepped
      exact sound.stepEnqueue found stepped
  · split at stepped
    · next found =>
      obtain ⟨outbox, committed, rfl⟩ := map_eq_some_iff.mp stepped
      exact sound.commit (by simp [found, TxPhase.made]) committed
    · next found =>
      obtain ⟨outbox, committed, rfl⟩ := map_eq_some_iff.mp stepped
      exact sound.commit (by simp [found, TxPhase.made]) committed
    · cases stepped
  · cases stepped
    exact sound.rollback _

end GuildStore.Sound

theorem sound_new : GuildStore.Sound {} where
  outbox := sound_empty
  rising _ _ _ held := by cases held
  history _ member := by cases member
  chain _ := ⟨List.Pairwise.nil, fun _ member => by cases member⟩
  txs _ := txSound_new rfl (by rintro key ⟨_, held⟩; cases held)

theorem sound_run {events : List StreamEvent} {store : GuildStore}
    (run : guildStreamMachine.run {} events = some store) : store.Sound :=
  Machine.invariant_run (fun _ _ _ sound stepped => sound.step stepped) run sound_new

/-- However transactions interleave, commit and abort, the records of a guild's stream have contiguous
sequences, and the access revision of each (those of a deletion have none) is at least that of every
earlier record and at least every revision that the triggers of its own transaction or of the
transaction of an earlier record have produced for the guild. -/
theorem guild_stream_monotone {events : List StreamEvent} {store : GuildStore}
    (run : guildStreamMachine.run {} events = some store) (guildID : ℤ) :
    (inStream (streamKey guildID) store.outbox.history).map (·.streamSequence) =
      List.range' 1 (store.outbox.last (streamKey guildID)) ∧
    (inStream (streamKey guildID) store.outbox.history).Pairwise (fun earlier later =>
      ∀ revision ∈ later.body.accessRevision, (∀ old ∈ earlier.body.accessRevision, old ≤ revision) ∧
        ∀ value, (guildID, value) ∈ earlier.body.bumps → value ≤ revision) ∧
    ∀ record ∈ inStream (streamKey guildID) store.outbox.history, record.body.guildID = guildID ∧
      (record.body.type ≠ eventTypeGuildDeleted → ∃ revision, record.body.accessRevision = some revision ∧
        ∀ value, (guildID, value) ∈ record.body.bumps → value ≤ revision) := by
  have sound := sound_run run
  have named (record) (member : record ∈ inStream (streamKey guildID) store.outbox.history) :
      record.body.guildID = guildID := by
    obtain ⟨stored, same⟩ := Outbox.mem_inStream.mp member
    exact streamKey_injective ((sound.history record stored).1.symm.trans same)
  refine ⟨sound.outbox.sequences _, ?_, fun record member => ⟨named record member, fun alive => ?_⟩⟩
  · have pairs := List.pairwise_map.mp (sound.chain (streamKey guildID)).pairs
    refine pairs.imp_of_mem fun {earlier later} member _ covers revision found => ⟨fun old known => ?_, ?_⟩
    · exact covers revision found old (EventBody.mem_values.mpr (.inl known))
    · intro value bumped
      exact covers revision found value (EventBody.mem_values.mpr (.inr (named earlier member ▸ bumped)))
  · obtain ⟨revision, found⟩ := Option.isSome_iff_exists.mp
      ((sound.history record (Outbox.mem_inStream.mp member).1).2.revision alive)
    refine ⟨revision, found, fun value bumped => ?_⟩
    have own := (sound.chain (streamKey guildID)).own record.body (List.mem_map_of_mem member)
    exact own revision found value (EventBody.mem_values.mpr (.inr (named record member ▸ bumped)))

/-- Two transactions of one guild: the second bumps the revision before the first takes the stream, and
enqueues after the first has committed. -/
def interleaved : List StreamEvent :=
  [.begin 0, .createGuild 0 7, .enqueueEvents 0 [{ outboxID := 1, type := "guild.created", guildID := 7 }],
    .ensureStream 0 4, .reserveSequences 0, .record 0, .insertOutbox 0, .commit 0,
    .begin 1, .change 1 7, .begin 2, .enqueueEvents 2 [{ outboxID := 2, type := "guild.updated", guildID := 7 }],
    .ensureStream 2 4, .reserveSequences 2, .record 2, .insertOutbox 2,
    .enqueueEvents 1 [{ outboxID := 3, type := "guild.role.created", guildID := 7 }], .ensureStream 1 4, .commit 2,
    .reserveSequences 1, .record 1, .insertOutbox 1, .commit 1]

theorem interleaved_in_order : ∃ store, guildStreamMachine.run {} interleaved = some store ∧
    (inStream (streamKey 7) store.outbox.history).map (fun record => (record.streamSequence, record.body.accessRevision)) =
      [(1, some 1), (2, some 1), (3, some 2)] ∧
    (inStream (streamKey 7) store.outbox.history).Pairwise (fun earlier later =>
      ∀ revision ∈ later.body.accessRevision, (∀ old ∈ earlier.body.accessRevision, old ≤ revision) ∧
        ∀ value, (7, value) ∈ earlier.body.bumps → value ≤ revision) := by
  refine Machine.exists_run rfl fun run => ⟨by decide, ?_⟩
  exact (guild_stream_monotone run 7).2.1

/-- No committed record tells of a revision that its guild has not reached. -/
theorem told_reached {events : List StreamEvent} {store : GuildStore} {record : Record EventBody} {revision : ℕ}
    (run : guildStreamMachine.run {} events = some store) (member : record ∈ store.outbox.history)
    (told : record.body.accessRevision = some revision) : Reaches (store.guilds.committed record.body.guildID) revision :=
  ((sound_run run).history record member).2.reached revision (EventBody.mem_values.mpr (.inl told))

theorem interleaved_reached : ∃ store, guildStreamMachine.run {} interleaved = some store ∧
    Reaches (store.guilds.committed 7) 2 :=
  Machine.exists_run rfl fun run => told_reached run (.tail _ (.tail _ (.head _))) rfl

end Cordis.Guild
