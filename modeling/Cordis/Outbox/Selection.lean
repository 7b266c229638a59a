import Cordis.Outbox.Relay
import Cordis.Outbox.Sequences

/-! # What the relay and the writers do to the event table

A selected row is the first of its stream among the visible rows of its shard, and a committed record
after the first has a predecessor in the same stream and shard. Deleting visible rows and setting a
back-off keep the tables sound. Writers only add: `Grows` says that visible rows stay and that every
newly committed record has a visible row.
-/

namespace Cordis.Outbox

open List

variable {Body : Type}

@[simp] theorem record_backOff (updates : List FailedUpdate) (row : Row Body) :
    (row.backOff updates).record = row.record := by
  unfold Row.backOff
  split
  · split_ifs <;> rfl
  · rfl

@[simp] theorem owner_backOff (updates : List FailedUpdate) (row : Row Body) :
    (row.backOff updates).owner = row.owner := by
  unfold Row.backOff
  split
  · split_ifs <;> rfl
  · rfl

theorem backOff_eq_self {updates : List FailedUpdate} {row : Row Body}
    (other : ∀ update ∈ updates, update.outboxID ≠ row.record.outboxID) : row.backOff updates = row := by
  have absent : updates.find? (fun update => update.outboxID = row.record.outboxID) = none :=
    find?_eq_none.mpr fun update member => by simpa using other update member
  simp only [Row.backOff, absent]

namespace Tables

variable {tables next : Tables Body} {tx shard limit : ℕ} {now : ℤ} {row head other : Row Body}

theorem mem_visible : row ∈ tables.visible ↔ row ∈ tables.events ∧ row.owner = none := by
  simp [visible]

/-- A selected row is the first of its stream in the shard. -/
theorem selectHeads_spec (selected : head ∈ tables.selectHeads shard now limit) :
    head ∈ tables.visible ∧ head.record.relayShardID = shard ∧
      ∀ other ∈ tables.visible, other.record.relayShardID = shard →
        other.record.streamKey = head.record.streamKey →
        head.record.streamSequence ≤ other.record.streamSequence := by
  have due := (perm_insertionSort ..).mem_iff.mp (mem_of_mem_take selected)
  obtain ⟨listed, first⟩ := mem_filter.mp (mem_filter.mp due).1
  obtain ⟨visible, sharded⟩ := mem_filter.mp listed
  refine ⟨visible, of_decide_eq_true sharded, fun other among inShard => ?_⟩
  exact of_decide_eq_true first other (mem_filter.mpr ⟨among, decide_eq_true inShard⟩)

namespace Sound

variable (sound : tables.Sound)

include sound

/-- The outbox id of a visible row is that of no other row. -/
theorem row_unique (visible : row ∈ tables.visible) (also : other ∈ tables.visible)
    (same : row.record.outboxID = other.record.outboxID) : row = other :=
  inj_on_of_nodup_map sound.unique (mem_visible.mp visible).1 (mem_visible.mp also).1 same

/-- A committed record after the first has a committed predecessor in its stream and shard. -/
theorem exists_predecessor {record : Record Body} (member : record ∈ tables.history)
    (later : 1 < record.streamSequence) :
    ∃ earlier ∈ tables.history, earlier.streamKey = record.streamKey ∧
      earlier.relayShardID = record.relayShardID ∧ earlier.streamSequence + 1 = record.streamSequence := by
  have counted : record.streamSequence ∈ (inStream record.streamKey tables.history).map (·.streamSequence) :=
    mem_map_of_mem (mem_inStream.mpr ⟨member, rfl⟩)
  rw [sound.sequences, mem_range'_1] at counted
  have previous : record.streamSequence - 1 ∈ (inStream record.streamKey tables.history).map (·.streamSequence) := by
    rw [sound.sequences, mem_range'_1]
    omega
  obtain ⟨earlier, found, sequence⟩ := mem_map.mp previous
  obtain ⟨committed, stream⟩ := mem_inStream.mp found
  obtain ⟨first, row, shard⟩ := sound.shards earlier committed
  obtain ⟨second, same, shard'⟩ := sound.shards record member
  rw [stream, same] at row
  cases row
  exact ⟨earlier, committed, stream, shard.trans shard'.symm, by omega⟩

/-- Rows may be changed in what their records do not say, and rows that others see may go. -/
theorem edit {events : List (Row Body)} (unique : (events.map (·.record.outboxID)).Nodup)
    (old : ∀ row ∈ events, ∃ before ∈ tables.events, before.record = row.record ∧ before.owner = row.owner)
    (inserted : ∀ tx, ({ tables with events } : Tables Body).inserted tx = tables.inserted tx) :
    ({ tables with events } : Tables Body).Sound where
  unique
  sequences := sound.sequences
  shards := sound.shards
  stored row member visible := by
    obtain ⟨before, stored, same, owner⟩ := old row member
    exact same ▸ sound.stored before stored (owner.trans visible)
  owned row member tx owned := by
    obtain ⟨before, stored, same, owner⟩ := old row member
    exact same ▸ sound.owned before stored tx (owner.trans owned)
  held := sound.held
  drafting key tx stream locked := by
    rw [inserted tx]
    exact sound.drafting key tx stream locked

theorem deleteDelivered (outboxIDs : List ℤ) : (tables.deleteDelivered outboxIDs).Sound := by
  refine sound.edit (sound.unique.sublist (filter_sublist.map _)) ?_ ?_
  · exact fun row member => ⟨row, (mem_filter.mp member).1, rfl, rfl⟩
  · intro tx
    simp only [Tables.inserted, filter_filter]
    congr 2
    funext row
    by_cases owned : row.owner = some tx <;> simp [owned]

theorem updateFailed (updates : List FailedUpdate) : (tables.updateFailed updates).Sound := by
  refine sound.edit ?_ ?_ ?_
  · simpa [map_map, Function.comp_def] using sound.unique
  · intro row member
    obtain ⟨before, stored, rfl⟩ := mem_map.mp member
    exact ⟨before, stored, by simp, by simp⟩
  · intro tx
    simp [Tables.inserted, filter_map, Function.comp_def]

end Sound

/-- What writers do to the tables: visible rows stay, and a committed record has a visible row. -/
structure Grows (tables next : Tables Body) : Prop where
  kept : ∀ row ∈ tables.visible, row ∈ next.visible
  added : ∀ record ∈ next.history, record ∈ tables.history ∨ ∃ row ∈ next.visible, row.record = record

theorem grows_of_eq (events : next.events = tables.events) (history : next.history = tables.history) :
    tables.Grows next where
  kept row shown := by
    rw [visible, events]
    exact shown
  added record member := .inl (history ▸ member)

theorem grows_ensureStream {streamKey : String} (ensured : tables.ensureStream tx streamKey shard = some next) :
    tables.Grows next := by
  unfold ensureStream at ensured
  split at ensured
  · cases ensured
    exact grows_of_eq rfl rfl
  · obtain ⟨streams, _, rfl⟩ := Option.map_eq_some_iff.mp ensured
    exact grows_of_eq rfl rfl

theorem grows_reserveSequences {streamKey : String} {count : ℕ}
    (reserved : tables.reserveSequences tx streamKey count = some next) : tables.Grows next := by
  unfold reserveSequences at reserved
  split at reserved
  · split_ifs at reserved
    obtain ⟨streams, _, rfl⟩ := Option.map_eq_some_iff.mp reserved
    exact grows_of_eq rfl rfl
  · cases reserved

theorem grows_insertBatch {drafts : List (Draft Body)} (inserted : tables.insertBatch tx drafts = some next) :
    tables.Grows next := by
  unfold insertBatch at inserted
  split at inserted
  · cases inserted
  · split_ifs at inserted
    cases inserted
    refine ⟨fun row visible => ?_, fun record member => .inl member⟩
    obtain ⟨stored, owner⟩ := mem_visible.mp visible
    exact mem_visible.mpr ⟨mem_append_left _ stored, owner⟩

theorem grows_commit (committed : tables.commit tx = some next) : tables.Grows next := by
  unfold commit at committed
  split at committed
  · cases committed
  · cases committed
    refine ⟨fun row visible => ?_, fun record member => ?_⟩
    · obtain ⟨stored, owner⟩ := mem_visible.mp visible
      exact mem_visible.mpr ⟨mem_map.mpr ⟨row, stored, by simp [owner]⟩, owner⟩
    · rcases mem_append.mp member with old | new
      · exact .inl old
      · obtain ⟨row, stored, owner, rfl⟩ := mem_inserted.mp new
        exact .inr ⟨{ row with owner := none },
          mem_visible.mpr ⟨mem_map.mpr ⟨row, stored, by simp [owner]⟩, rfl⟩, rfl⟩

theorem grows_rollback (tables : Tables Body) (tx : ℕ) : tables.Grows (tables.rollback tx) := by
  refine ⟨fun row visible => ?_, fun record member => .inl member⟩
  obtain ⟨stored, owner⟩ := mem_visible.mp visible
  exact mem_visible.mpr ⟨mem_filter.mpr ⟨stored, by simp [owner]⟩, owner⟩

end Tables

end Cordis.Outbox
