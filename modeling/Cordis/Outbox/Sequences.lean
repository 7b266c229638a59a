import Cordis.Outbox.Tables

/-! # The sequences of a stream

The lock of a stream's row orders the transactions that write to the stream: what one of them has
reserved continues the committed sequences without a gap, and nobody else commits to the stream before
it ends. So the committed records of a stream count up from one in the order of the commits, and all
carry the shard of the stream's row.
-/

namespace Cordis.Outbox

open LockedTable Pool Function Option

variable {Body : Type}

/-- The records of one stream. -/
def inStream (streamKey : String) (records : List (Record Body)) : List (Record Body) :=
  records.filter fun record => record.streamKey = streamKey

@[simp] theorem inStream_nil (streamKey : String) : inStream streamKey ([] : List (Record Body)) = [] := rfl

@[simp] theorem inStream_append (streamKey : String) (first second : List (Record Body)) :
    inStream streamKey (first ++ second) = inStream streamKey first ++ inStream streamKey second :=
  List.filter_append ..

variable {record : Record Body} {streamKey : String}

theorem mem_inStream {records : List (Record Body)} :
    record ∈ inStream streamKey records ↔ record ∈ records ∧ record.streamKey = streamKey := by
  simp [inStream]

section Records

variable (streamKey : String) (shard sequence : ℕ) (drafts : List (Draft Body))

@[simp] theorem length_records : (records streamKey shard sequence drafts).length = drafts.length := by
  induction drafts generalizing sequence with
  | nil => rfl
  | cons draft drafts ih => exact congrArg (· + 1) (ih _)

theorem sequences_records :
    (records streamKey shard sequence drafts).map (·.streamSequence) = List.range' sequence drafts.length := by
  induction drafts generalizing sequence with
  | nil => rfl
  | cons draft drafts ih => exact congrArg (sequence :: ·) (ih _)

theorem outboxIDs_records :
    (records streamKey shard sequence drafts).map (·.outboxID) = drafts.map (·.outboxID) := by
  induction drafts generalizing sequence with
  | nil => rfl
  | cons draft drafts ih => exact congrArg (draft.outboxID :: ·) (ih _)

theorem bodies_records :
    (records streamKey shard sequence drafts).map (·.body) = drafts.map (·.body) := by
  induction drafts generalizing sequence with
  | nil => rfl
  | cons draft drafts ih => exact congrArg (draft.body :: ·) (ih _)

variable {streamKey shard sequence drafts}

theorem of_mem_records (member : record ∈ records streamKey shard sequence drafts) :
    record.streamKey = streamKey ∧ record.relayShardID = shard := by
  induction drafts generalizing sequence with
  | nil => cases member
  | cons draft drafts ih =>
    rcases List.mem_cons.mp member with rfl | later
    · exact ⟨rfl, rfl⟩
    · exact ih later

theorem inStream_records (other : String) : inStream other (records streamKey shard sequence drafts) =
    if other = streamKey then records streamKey shard sequence drafts else [] := by
  split_ifs with same
  · exact List.filter_eq_self.mpr fun record member => by simp [of_mem_records member, same]
  · refine List.filter_eq_nil_iff.mpr fun record member => ?_
    simpa [of_mem_records member] using Ne.symm same

end Records

/-- The last sequence of a stream's row, if there is one. -/
def lastOf (base : Option Stream) : ℕ := base.elim 0 (·.lastSequence)

namespace Tables

/-- The range a transaction has reserved in the stream and not used yet. -/
def unused (tables : Tables Body) (tx : ℕ) (streamKey : String) : Option ReservedRange :=
  ((tables.reserved tx).filter fun reserved => reserved.1 = streamKey).map Prod.snd

theorem unused_eq_some {tables : Tables Body} {tx : ℕ} {range : ReservedRange} :
    tables.unused tx streamKey = some range ↔ tables.reserved tx = some (streamKey, range) := by
  unfold unused
  cases tables.reserved tx with
  | none => simp
  | some reserved =>
    obtain ⟨key, held⟩ := reserved
    simp

end Tables

/-- What a transaction has made of a stream that it has locked: records that continue the committed
ones, and possibly a range that continues the records. -/
structure Drafting (base : Option Stream) (written : List (Record Body)) (unused : Option ReservedRange)
    (stream : Stream) : Prop where
  sequences : written.map (·.streamSequence) = List.range' (lastOf base + 1) written.length
  shards : ∀ record ∈ written, record.relayShardID = stream.relayShardID
  shard : ∀ old ∈ base, old.relayShardID = stream.relayShardID
  used : unused = none → stream.lastSequence = lastOf base + written.length
  range : ∀ range ∈ unused, range.firstSequence = lastOf base + written.length + 1 ∧
    range.lastSequence = stream.lastSequence ∧ range.shardID = stream.relayShardID

namespace Drafting

variable {base : Option Stream} {written : List (Record Body)} {stream : Stream}

/-- A new row of a stream. -/
theorem create (shard : ℕ) : Drafting (none : Option Stream) ([] : List (Record Body)) none ⟨shard, 0⟩ :=
  ⟨rfl, by simp, by simp, fun _ => rfl, by simp⟩

/-- A committed row, before the transaction writes to it. -/
theorem committed (stream : Stream) : Drafting (some stream) ([] : List (Record Body)) none stream :=
  ⟨rfl, by simp, by simp, fun _ => rfl, by simp⟩

theorem reserve (drafting : Drafting base written none stream) (count : ℕ) :
    Drafting base written (some ⟨stream.lastSequence + 1, stream.lastSequence + count, stream.relayShardID⟩)
      { stream with lastSequence := stream.lastSequence + count } where
  sequences := drafting.sequences
  shards := drafting.shards
  shard := drafting.shard
  used unreserved := by cases unreserved
  range range reserved := by
    cases reserved
    exact ⟨congrArg (· + 1) (drafting.used rfl), rfl, rfl⟩

theorem insert {range : ReservedRange} (drafting : Drafting base written (some range) stream) (streamKey : String)
    {drafts : List (Draft Body)} (fits : range.firstSequence + drafts.length = range.lastSequence + 1) :
    Drafting base (written ++ records streamKey range.shardID range.firstSequence drafts) none stream := by
  obtain ⟨first, last, shard⟩ := drafting.range range rfl
  constructor
  · rw [List.map_append, drafting.sequences, sequences_records, first, List.length_append, length_records,
      ← List.range'_append_1]
    congr 2
    omega
  · intro record member
    rcases List.mem_append.mp member with old | new
    · exact drafting.shards record old
    · exact (of_mem_records new).2.trans shard
  · exact drafting.shard
  · intro _
    rw [List.length_append, length_records]
    omega
  · simp

end Drafting

/-- The streams are numbered without gaps, and every stored row belongs to where it says. -/
structure Tables.Sound (tables : Tables Body) : Prop where
  unique : (tables.events.map (·.record.outboxID)).Nodup
  sequences : ∀ streamKey, (inStream streamKey tables.history).map (·.streamSequence) =
    List.range' 1 (tables.last streamKey)
  shards : ∀ record ∈ tables.history, ∃ stream, tables.streams.committed record.streamKey = some stream ∧
    record.relayShardID = stream.relayShardID
  stored : ∀ row ∈ tables.events, row.owner = none → row.record ∈ tables.history
  owned : ∀ row ∈ tables.events, ∀ tx, row.owner = some tx →
    ∃ stream, tables.streams.pending row.record.streamKey = some (tx, stream)
  held : ∀ tx streamKey range, tables.reserved tx = some (streamKey, range) →
    ∃ stream, tables.streams.pending streamKey = some (tx, stream)
  drafting : ∀ streamKey tx stream, tables.streams.pending streamKey = some (tx, stream) →
    Drafting (tables.streams.committed streamKey) (inStream streamKey (tables.inserted tx))
      (tables.unused tx streamKey) stream

namespace Tables

variable {tables next : Tables Body} {tx other : ℕ} {streamKey : String}

theorem mem_inserted :
    record ∈ tables.inserted tx ↔ ∃ row ∈ tables.events, row.owner = some tx ∧ row.record = record := by
  simp [inserted, and_assoc]

variable (tables tx other)

@[simp] theorem streams_insert (records : List (Record Body)) :
    (tables.insert tx records).streams = tables.streams := rfl

@[simp] theorem history_insert (records : List (Record Body)) :
    (tables.insert tx records).history = tables.history := rfl

theorem inserted_insert (records : List (Record Body)) : (tables.insert tx records).inserted other =
      if other = tx then tables.inserted other ++ records else tables.inserted other := by
  unfold inserted insert
  split_ifs with self
  · simp [List.filter_map, comp_def, self]
  · simp [List.filter_map, comp_def, Ne.symm self]

theorem unused_insert (records : List (Record Body)) (streamKey : String) :
    (tables.insert tx records).unused other streamKey =
      if other = tx then none else tables.unused other streamKey := by
  unfold unused insert
  split_ifs with self <;> simp [drop, self]

theorem history_settle : (tables.settle tx).history = tables.history ++ tables.inserted tx := rfl

theorem unused_settle : (tables.settle tx).unused = tables.unused := rfl

variable {tables tx other}

theorem last_settle {base : Option Stream} (read : tables.streams.read tx streamKey = base) :
    (tables.settle tx).last streamKey = lastOf base :=
  congrArg lastOf read

/-- Committing a transaction leaves the rows of the others to them. -/
theorem inserted_settle (tables : Tables Body) (ne : other ≠ tx) :
    (tables.settle tx).inserted other = tables.inserted other := by
  simp only [inserted, settle]
  induction tables.events with
  | nil => rfl
  | cons row events ih =>
    by_cases mine : row.owner = some tx
    · simpa [mine, Ne.symm ne] using ih
    · by_cases theirs : row.owner = some other <;> simp [mine, theirs, ih, ne]

theorem inserted_rollback (tables : Tables Body) (ne : other ≠ tx) :
    (tables.rollback tx).inserted other = tables.inserted other := by
  simp only [inserted, rollback, List.filter_filter]
  congr 2
  funext row
  by_cases theirs : row.owner = some other <;> simp [theirs, ne]

theorem unused_rollback (tables : Tables Body) (streamKey : String) (ne : other ≠ tx) :
    (tables.rollback tx).unused other streamKey = tables.unused other streamKey := by
  simp [unused, rollback, drop, ne]

theorem sound_empty : Sound ({} : Tables Body) where
  unique := List.nodup_nil
  sequences _ := rfl
  shards _ member := by cases member
  stored _ member := by cases member
  owned _ member := by cases member
  held _ _ _ reserved := by cases reserved
  drafting _ _ _ locked := by cases locked

namespace Sound

variable (sound : tables.Sound)

include sound

/-- A transaction has written nothing to a stream that it has not locked. -/
theorem written_eq_nil (free : ∀ stream, tables.streams.pending streamKey ≠ some (tx, stream)) :
    inStream streamKey (tables.inserted tx) = [] := by
  refine List.eq_nil_iff_forall_not_mem.mpr fun record member => ?_
  obtain ⟨inserted, rfl⟩ := mem_inStream.mp member
  obtain ⟨row, stored, owner, rfl⟩ := mem_inserted.mp inserted
  obtain ⟨stream, locked⟩ := sound.owned row stored tx owner
  exact free stream locked

theorem unused_eq_none (free : ∀ stream, tables.streams.pending streamKey ≠ some (tx, stream)) :
    tables.unused tx streamKey = none := by
  refine eq_none_iff_forall_ne_some.mpr fun range unused => ?_
  obtain ⟨stream, locked⟩ := sound.held tx streamKey range (unused_eq_some.mp unused)
  exact free stream locked

/-- What a transaction reads of a stream continues the committed records, whether it has written to
the stream before or not. -/
theorem drafting_of_read {stream : Stream} (read : tables.streams.read tx streamKey = some stream)
    (free : tables.streams.Free tx streamKey) :
    Drafting (tables.streams.committed streamKey) (inStream streamKey (tables.inserted tx))
      (tables.unused tx streamKey) stream := by
  rcases free.cases with unlocked | ⟨row, locked⟩
  · have unheld : ∀ stream, tables.streams.pending streamKey ≠ some (tx, stream) := by simp [unlocked]
    rw [read_of_unlocked unlocked] at read
    rw [sound.written_eq_nil unheld, sound.unused_eq_none unheld, read]
    exact .committed stream
  · rw [read_of_pending locked] at read
    cases read
    exact sound.drafting streamKey tx _ locked

/-- A transaction writes the row of a stream, and reserves nothing or a range in that stream. -/
theorem write {stream : Stream} {reserved : Pool ℕ (String × ReservedRange)}
    (others : ∀ other, other ≠ tx → reserved other = tables.reserved other)
    (mine : ∀ key range, reserved tx = some (key, range) → key ≠ streamKey → tables.reserved tx = some (key, range))
    (kept : ∀ key range, tables.reserved tx = some (key, range) → key ≠ streamKey → reserved tx = some (key, range))
    (free : tables.streams.Free tx streamKey)
    (drafting : Drafting (tables.streams.committed streamKey) (inStream streamKey (tables.inserted tx))
      (({ tables with reserved } : Tables Body).unused tx streamKey) stream) :
    ({ tables with
        streams := { tables.streams with
          pending := update tables.streams.pending streamKey (some (tx, stream)) }
        reserved } : Tables Body).Sound where
  unique := sound.unique
  sequences := sound.sequences
  shards := sound.shards
  stored := sound.stored
  owned row stored owner owned := by
    obtain ⟨old, locked⟩ := sound.owned row stored owner owned
    by_cases same : row.record.streamKey = streamKey
    · rw [same] at locked
      cases free _ locked
      exact ⟨stream, by simp [same]⟩
    · exact ⟨old, by simpa [same] using locked⟩
  held owner key range held := by
    by_cases same : key = streamKey
    · subst same
      by_cases self : owner = tx
      · subst self
        exact ⟨stream, by simp⟩
      · obtain ⟨old, locked⟩ := sound.held owner key range ((others owner self).symm.trans held)
        exact absurd (free _ locked) self
    · have before : tables.reserved owner = some (key, range) := by
        by_cases self : owner = tx
        · subst self
          exact mine key range held same
        · exact (others owner self).symm.trans held
      obtain ⟨old, locked⟩ := sound.held owner key range before
      exact ⟨old, by simpa [same] using locked⟩
  drafting key owner row locked := by
    by_cases same : key = streamKey
    · subst same
      simp only [update_self, some.injEq, Prod.mk.injEq] at locked
      obtain ⟨rfl, rfl⟩ := locked
      exact drafting
    · simp only [update_of_ne same] at locked
      have before := sound.drafting key owner row locked
      have unchanged : ({ tables with reserved } : Tables Body).unused owner key = tables.unused owner key := by
        refine ext fun range => ?_
        simp only [unused_eq_some]
        by_cases self : owner = tx
        · subst self
          exact ⟨fun now => mine key range now same, fun old => kept key range old same⟩
        · rw [others owner self]
      exact unchanged ▸ before

theorem ensureStream {shard : ℕ} (ensured : tables.ensureStream tx streamKey shard = some next) : next.Sound := by
  unfold Tables.ensureStream at ensured
  split at ensured
  · cases ensured
    exact sound
  · next absent =>
    obtain ⟨streams, written, rfl⟩ := map_eq_some_iff.mp ensured
    obtain ⟨free, rfl⟩ := write_eq_some.mp written
    refine sound.write (fun _ _ => rfl) (fun _ _ held _ => held) (fun _ _ held _ => held) free ?_
    rcases free.cases with unlocked | ⟨row, locked⟩
    · have unheld : ∀ stream, tables.streams.pending streamKey ≠ some (tx, stream) := by simp [unlocked]
      rw [read_of_unlocked unlocked] at absent
      have unreserved := sound.unused_eq_none unheld
      rw [sound.written_eq_nil unheld, absent]
      exact unreserved ▸ .create shard
    · rw [read_of_pending locked] at absent
      cases absent

theorem reserveSequences {count : ℕ} (reserved : tables.reserveSequences tx streamKey count = some next) :
    next.Sound := by
  unfold Tables.reserveSequences at reserved
  split at reserved
  · next stream idle read =>
    split_ifs at reserved with positive
    obtain ⟨streams, written, rfl⟩ := map_eq_some_iff.mp reserved
    obtain ⟨free, rfl⟩ := write_eq_some.mp written
    refine sound.write (fun other ne => by simp [Pool.set, ne]) ?_ (fun _ _ held => by simp [idle] at held) free ?_
    · intro key range held ne
      simp only [Pool.set, update_self, some.injEq, Prod.mk.injEq] at held
      exact absurd held.1.symm ne
    · have before := sound.drafting_of_read read free
      have unused : tables.unused tx streamKey = none := by simp [Tables.unused, idle]
      rw [unused] at before
      have range (value : ReservedRange) : ({ tables with
          reserved := tables.reserved.set tx (streamKey, value) } : Tables Body).unused tx streamKey = some value :=
        unused_eq_some.mpr (update_self ..)
      rw [range]
      exact before.reserve count
  · cases reserved

/-- The records of a batch are in the stream whose range the transaction uses. -/
theorem insertBatch {drafts : List (Draft Body)} (inserted : tables.insertBatch tx drafts = some next) :
    next.Sound := by
  unfold Tables.insertBatch at inserted
  split at inserted
  · cases inserted
  · next streamKey range reserved =>
    split_ifs at inserted with valid
    obtain ⟨fits, fresh⟩ := valid
    cases inserted
    obtain ⟨stream, locked⟩ := sound.held tx streamKey range reserved
    constructor
    · have ids := outboxIDs_records streamKey range.shardID range.firstSequence drafts
      simp only [Tables.insert, List.map_append, List.map_map, comp_def]
      exact ids ▸ fresh
    · exact sound.sequences
    · exact sound.shards
    · intro row member committed
      rcases List.mem_append.mp member with old | new
      · exact sound.stored row old committed
      · obtain ⟨record, _, rfl⟩ := List.mem_map.mp new
        cases committed
    · intro row member owner owned
      rcases List.mem_append.mp member with old | new
      · exact sound.owned row old owner owned
      · obtain ⟨record, written, rfl⟩ := List.mem_map.mp new
        cases owned
        exact ⟨stream, (of_mem_records written).1 ▸ locked⟩
    · intro owner key other held
      exact sound.held owner key other (of_drop held)
    · intro key owner row held
      have before := sound.drafting key owner row held
      rw [inserted_insert, unused_insert]
      by_cases self : owner = tx
      · subst self
        simp only [↓reduceIte, inStream_append, inStream_records]
        by_cases same : key = streamKey
        · subst same
          rw [unused_eq_some.mpr reserved] at before
          simpa using before.insert key fits
        · have none : tables.unused owner key = none := by
            refine eq_none_iff_forall_ne_some.mpr fun other unused => same ?_
            cases reserved.symm.trans (unused_eq_some.mp unused)
            rfl
          rw [none] at before
          simpa [same] using before
      · simpa [self] using before

/-- Streams that the transaction has locked go on to what it has written; no other stream changes. -/
theorem commit (committed : tables.commit tx = some next) : next.Sound := by
  unfold Tables.commit at committed
  split at committed
  · cases committed
  · next idle =>
    cases committed
    constructor
    · have same (row : Row Body) : (if row.owner = some tx then { row with owner := none } else row).record.outboxID =
          row.record.outboxID := by split_ifs <;> rfl
      simpa only [settle, List.map_map, comp_def, same] using sound.unique
    · intro key
      rw [history_settle, inStream_append, List.map_append, sound.sequences]
      rcases tables.streams.read_cases tx key with ⟨stream, locked, read⟩ | ⟨free, read⟩
      · have drafting := sound.drafting key tx stream locked
        have total : stream.lastSequence = tables.last key + (inStream key (tables.inserted tx)).length :=
          drafting.used (by simp [Tables.unused, idle])
        have later : lastOf (some stream) = tables.last key + (inStream key (tables.inserted tx)).length := total
        rw [last_settle read, later, drafting.sequences, ← List.range'_append_1, Nat.add_comm 1]
        rfl
      · rw [last_settle read, sound.written_eq_nil free, List.map_nil, List.append_nil]
        rfl
    · intro record member
      rcases List.mem_append.mp member with old | new
      · obtain ⟨stream, before, shard⟩ := sound.shards record old
        rcases tables.streams.read_cases tx record.streamKey with ⟨later, locked, read⟩ | ⟨_, read⟩
        · have same := (sound.drafting record.streamKey tx later locked).shard stream before
          exact ⟨later, read, shard.trans same⟩
        · exact ⟨stream, read.trans before, shard⟩
      · obtain ⟨row, stored, owner, rfl⟩ := mem_inserted.mp new
        obtain ⟨stream, locked⟩ := sound.owned row stored tx owner
        have shards := (sound.drafting row.record.streamKey tx stream locked).shards row.record
        exact ⟨stream, read_of_pending locked, shards (mem_inStream.mpr ⟨new, rfl⟩)⟩
    · intro row member visible
      obtain ⟨old, stored, rfl⟩ := List.mem_map.mp member
      split_ifs at visible ⊢ with mine
      · exact List.mem_append_right _ (mem_inserted.mpr ⟨old, stored, mine, rfl⟩)
      · exact List.mem_append_left _ (sound.stored old stored visible)
    · intro row member owner owned
      obtain ⟨old, stored, rfl⟩ := List.mem_map.mp member
      split_ifs at owned ⊢ with mine
      obtain ⟨stream, locked⟩ := sound.owned old stored owner owned
      exact ⟨stream, release_eq_some.mpr ⟨locked, fun same => mine (same ▸ owned)⟩⟩
    · intro owner key range held
      obtain ⟨stream, locked⟩ := sound.held owner key range held
      refine ⟨stream, release_eq_some.mpr ⟨locked, fun same => ?_⟩⟩
      obtain rfl : owner = tx := same
      cases idle.symm.trans held
    · intro key owner row locked
      obtain ⟨locked, ne⟩ := release_eq_some.mp locked
      have unchanged : (tables.settle tx).streams.committed key = tables.streams.committed key :=
        read_of_other locked ne
      rw [unchanged, inserted_settle tables ne, unused_settle]
      exact sound.drafting key owner row locked

theorem rollback (tx : ℕ) : (tables.rollback tx).Sound where
  unique := (sound.unique.sublist (List.filter_sublist.map _))
  sequences := sound.sequences
  shards := sound.shards
  stored row member := sound.stored row (List.mem_filter.mp member).1
  owned row member owner owned := by
    obtain ⟨stored, other⟩ := List.mem_filter.mp member
    obtain ⟨stream, locked⟩ := sound.owned row stored owner owned
    refine ⟨stream, release_eq_some.mpr ⟨locked, fun same => ?_⟩⟩
    simp [owned, show owner = tx from same] at other
  held owner key range held := by
    obtain ⟨stream, locked⟩ := sound.held owner key range (of_drop held)
    refine ⟨stream, release_eq_some.mpr ⟨locked, fun same => ?_⟩⟩
    obtain rfl : owner = tx := same
    simp [Tables.rollback, Pool.drop] at held
  drafting key owner row locked := by
    obtain ⟨locked, ne⟩ := release_eq_some.mp locked
    have before := sound.drafting key owner row locked
    rw [inserted_rollback tables ne, unused_rollback tables key ne]
    exact before

end Sound

end Tables

end Cordis.Outbox
