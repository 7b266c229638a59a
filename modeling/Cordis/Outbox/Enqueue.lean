import Cordis.Machine.Script
import Cordis.Outbox.Sequences

/-! # Writers and readers of an outbox

A writer's transaction issues three statements for each stream that it has events of: it makes sure of the
stream, reserves sequences and inserts the events. What a transaction has in the outbox is its footprint:
the stream whose sequences it has reserved and not used yet, and the events it has inserted. A statement
changes the footprint of its own transaction only, and committed records only change by a commit.

A reader that takes the records of a stream by their sequences reads the committed ones in order.
-/

namespace Cordis.Outbox

open Pool List Option

variable {Body : Type}

inductive OutboxCall (Body : Type) where
  | ensureStream (streamKey : String) (shard : ℕ)
  | reserveSequences (streamKey : String) (count : ℕ)
  | insertBatch (drafts : List (Draft Body))

section Writers

/-- One more event in the groups by stream, which stand in the order of their first events. -/
def addToGroup (streamKey : String) (draft : Draft Body) :
    List (String × List (Draft Body)) → List (String × List (Draft Body))
  | [] => [(streamKey, [draft])]
  | (key, drafts) :: groups =>
      if key = streamKey then (key, drafts ++ [draft]) :: groups else (key, drafts) :: addToGroup streamKey draft groups

def groupByStream (drafts : List (String × Draft Body)) : List (String × List (Draft Body)) :=
  drafts.foldl (fun groups draft => addToGroup draft.1 draft.2 groups) []

variable {Call : Type} {Reply : Call → Type} {ε : Type}

/-- The loop over the streams; `panics` stands for the panic without shards. -/
def enqueue (shardCount : ℕ) (panics : ε) (issue : OutboxCall Body → Script Reply ε Unit)
    (drafts : List (String × Draft Body)) : Script Reply ε Unit :=
  Script.each (fun group => do
    let shard ← Script.lift ((shardID group.1 shardCount).elim (.error panics) .ok)
    issue (.ensureStream group.1 shard)
    issue (.reserveSequences group.1 group.2.length)
    issue (.insertBatch group.2)) (groupByStream drafts)

end Writers

namespace Tables

variable {tables next : Tables Body} {tx other : ℕ} {streamKey : String}

def exec (tables : Tables Body) (tx : ℕ) : OutboxCall Body → Option (Tables Body)
  | .ensureStream streamKey shard => tables.ensureStream tx streamKey shard
  | .reserveSequences streamKey count => tables.reserveSequences tx streamKey count
  | .insertBatch drafts => tables.insertBatch tx drafts

variable {call : OutboxCall Body}

theorem Sound.exec (sound : tables.Sound) (ran : tables.exec tx call = some next) : next.Sound := by
  cases call with
  | ensureStream streamKey shard => exact sound.ensureStream ran
  | reserveSequences streamKey count => exact sound.reserveSequences ran
  | insertBatch drafts => exact sound.insertBatch ran

theorem Sound.settle (sound : tables.Sound) (idle : tables.reserved tx = none) : (tables.settle tx).Sound :=
  sound.commit (by rw [Tables.commit, idle])

section Footprint

/-- The stream of unused sequences and the inserted events of a transaction. -/
structure Footprint (Body : Type) where
  reserved : Option String := none
  inserted : List (String × Body) := []

def footprint (tables : Tables Body) (tx : ℕ) : Footprint Body where
  reserved := (tables.reserved tx).map Prod.fst
  inserted := (tables.inserted tx).map fun record => (record.streamKey, record.body)

theorem ensureStream_eq_some {shard : ℕ} (ensured : tables.ensureStream tx streamKey shard = some next) :
    ∃ streams, next = { tables with streams } := by
  unfold ensureStream at ensured
  split at ensured
  · cases ensured
    exact ⟨_, rfl⟩
  · obtain ⟨streams, _, rfl⟩ := map_eq_some_iff.mp ensured
    exact ⟨streams, rfl⟩

theorem reserveSequences_eq_some {count : ℕ} (reserved : tables.reserveSequences tx streamKey count = some next) :
    ∃ streams range, next = { tables with streams, reserved := tables.reserved.set tx (streamKey, range) } := by
  unfold reserveSequences at reserved
  split at reserved
  · split_ifs at reserved
    obtain ⟨streams, _, rfl⟩ := map_eq_some_iff.mp reserved
    exact ⟨streams, _, rfl⟩
  · cases reserved

variable {drafts : List (Draft Body)}

theorem insertBatch_eq_some (inserted : tables.insertBatch tx drafts = some next) :
    ∃ streamKey range, tables.reserved tx = some (streamKey, range) ∧
      next = tables.insert tx (records streamKey range.shardID range.firstSequence drafts) := by
  unfold insertBatch at inserted
  split at inserted
  · cases inserted
  · next streamKey range reserved =>
    split_ifs at inserted
    cases inserted
    exact ⟨streamKey, range, reserved, rfl⟩

theorem history_exec (ran : tables.exec tx call = some next) :
    next.history = tables.history := by
  cases call with
  | ensureStream =>
    obtain ⟨_, rfl⟩ := ensureStream_eq_some ran
    rfl
  | reserveSequences =>
    obtain ⟨_, _, rfl⟩ := reserveSequences_eq_some ran
    rfl
  | insertBatch =>
    obtain ⟨_, _, _, rfl⟩ := insertBatch_eq_some ran
    rfl

/-- A statement leaves the footprints of the other transactions. -/
theorem footprint_exec_of_ne (ran : tables.exec tx call = some next) (ne : other ≠ tx) :
    next.footprint other = tables.footprint other := by
  cases call with
  | ensureStream =>
    obtain ⟨_, rfl⟩ := ensureStream_eq_some ran
    rfl
  | reserveSequences =>
    obtain ⟨_, _, rfl⟩ := reserveSequences_eq_some ran
    simp only [footprint, set_of_ne _ ne]
    rfl
  | insertBatch =>
    obtain ⟨_, _, _, rfl⟩ := insertBatch_eq_some ran
    simp only [footprint, inserted_insert, if_neg ne]
    simp only [Tables.insert, drop_of_ne _ ne]

theorem footprint_ensureStream {shard : ℕ} (ran : tables.exec tx (.ensureStream streamKey shard) = some next) :
    next.footprint tx = tables.footprint tx := by
  obtain ⟨_, rfl⟩ := ensureStream_eq_some ran
  rfl

theorem footprint_reserveSequences {count : ℕ}
    (ran : tables.exec tx (.reserveSequences streamKey count) = some next) :
    next.footprint tx = { tables.footprint tx with reserved := some streamKey } := by
  obtain ⟨_, _, rfl⟩ := reserveSequences_eq_some ran
  simp only [footprint, set_self, map_some]
  rfl

theorem keyed_records (streamKey : String) (shard sequence : ℕ) (drafts : List (Draft Body)) :
    (records streamKey shard sequence drafts).map (fun record => (record.streamKey, record.body)) =
      drafts.map fun draft => (streamKey, draft.body) := by
  induction drafts generalizing sequence with
  | nil => rfl
  | cons draft drafts ih => simp [records, ih]

theorem footprint_insertBatch (held : (tables.footprint tx).reserved = some streamKey)
    (ran : tables.exec tx (.insertBatch drafts) = some next) :
    next.footprint tx =
      { inserted := (tables.footprint tx).inserted ++ drafts.map fun draft => (streamKey, draft.body) } := by
  obtain ⟨key, range, reserved, rfl⟩ := insertBatch_eq_some ran
  obtain rfl : key = streamKey := by simpa [footprint, reserved] using held
  simp only [footprint, inserted_insert, ↓reduceIte, map_append, keyed_records]
  simp [Tables.insert, drop_self]

theorem footprint_settle_of_ne (ne : other ≠ tx) : (tables.settle tx).footprint other = tables.footprint other := by
  simp only [footprint, inserted_settle tables ne]
  rfl

theorem footprint_settle (idle : tables.reserved tx = none) : (tables.settle tx).footprint tx = {} := by
  have none : (tables.settle tx).inserted tx = [] := by
    refine List.map_eq_nil_iff.mpr (List.filter_eq_nil_iff.mpr fun row member => ?_)
    obtain ⟨old, _, rfl⟩ := List.mem_map.mp member
    split_ifs with mine
    · simp
    · simpa using mine
  have unreserved : (tables.settle tx).reserved tx = Option.none := idle
  simp [footprint, none, unreserved]

theorem footprint_rollback_of_ne (ne : other ≠ tx) : (tables.rollback tx).footprint other = tables.footprint other := by
  simp only [footprint, inserted_rollback tables ne]
  simp only [rollback, drop_of_ne _ ne]

theorem footprint_rollback (tables : Tables Body) (tx : ℕ) : (tables.rollback tx).footprint tx = {} := by
  have none : (tables.rollback tx).inserted tx = [] := by
    refine map_eq_nil_iff.mpr (filter_eq_nil_iff.mpr fun row member => ?_)
    simpa using (mem_filter.mp member).2
  simp only [footprint, none, map_nil]
  simp [rollback, drop_self]

end Footprint

section Readers

/-- The committed record of a stream with a sequence. -/
def record (tables : Tables Body) (streamKey : String) (sequence : ℕ) : Option (Record Body) :=
  tables.history.find? fun record => record.streamKey = streamKey ∧ record.streamSequence = sequence

theorem find?_of_sequences {records : List (Record Body)} {count : ℕ}
    (sequences : records.map (·.streamSequence) = range' 1 count) (index : ℕ) :
    (records.find? fun record => record.streamSequence = index + 1) = records[index]? := by
  have numbered {position : ℕ} {record : Record Body} (here : records[position]? = some record) :
      record.streamSequence = position + 1 := by
    have mapped : (records.map (·.streamSequence))[position]? = some record.streamSequence := by
      rw [getElem?_map, here, map_some]
    rw [sequences] at mapped
    obtain ⟨_, number⟩ := List.getElem?_eq_some_iff.mp mapped
    rw [getElem_range'] at number
    omega
  cases here : records[index]? with
  | none =>
    refine find?_eq_none.mpr fun record member => ?_
    obtain ⟨position, there⟩ := mem_iff_getElem?.mp member
    have number := numbered there
    simp only [decide_eq_true_eq]
    intro same
    obtain rfl : position = index := by omega
    cases here.symm.trans there
  | some record =>
    obtain ⟨bound, isHere⟩ := List.getElem?_eq_some_iff.mp here
    refine find?_eq_some_iff_getElem.mpr ⟨by simpa using numbered here, index, bound, isHere, ?_⟩
    intro earlier less
    have number := numbered (getElem?_eq_getElem (less.trans bound))
    simp only [number, Bool.not_eq_true', decide_eq_false_iff_not]
    omega

/-- By their sequences the records of a stream come in the order of their commits. -/
theorem Sound.record_eq (sound : tables.Sound) (streamKey : String) (index : ℕ) :
    tables.record streamKey (index + 1) = (inStream streamKey tables.history)[index]? := by
  rw [← find?_of_sequences (sound.sequences streamKey), inStream, find?_filter, record]
  congr 1
  funext row
  simp

end Readers

end Tables

end Cordis.Outbox
