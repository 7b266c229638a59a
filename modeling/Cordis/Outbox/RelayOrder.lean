import Cordis.Outbox.Selection

/-! # The relay keeps the order of a stream and loses nothing

A row that is selected as the head of its stream comes after rows that are gone, and a row is gone only
after it was published with success. The advisory lock gives the rows of a shard to one worker, so what
a worker acknowledges is what it has published. With the sequences of a stream counting up in commit
order, no record of a stream is handed to the producer before its predecessor has succeeded.
-/

namespace Cordis.Outbox

open Tables List Option

variable {Body : Type}

/-- The session has the lock of the shard. -/
def Holds (locks : ℕ → Option (ℕ × ℕ)) (session shard : ℕ) : Prop := ∃ depth, locks shard = some (session, depth)

/-- What a worker knows in each phase: the lock is its own, and the rows it works on are rows of the
shard that are still there. -/
def RelayPhase.Sound (tables : Tables Body) (locks : ℕ → Option (ℕ × ℕ)) (succeeded : List (Record Body))
    (session : ℕ) : RelayPhase Body → Prop
  | .scanning => True
  | .holding shard | .unlocking shard _ => Holds locks session shard
  | .publishing shard heads => Holds locks session shard ∧
      ∀ row ∈ heads, row ∈ tables.visible ∧ row.record.relayShardID = shard
  | .reported shard delivered failed => Holds locks session shard ∧
      (∀ id ∈ delivered, ∃ row ∈ tables.visible, row.record.outboxID = id ∧ row.record.relayShardID = shard ∧
        row.record ∈ succeeded) ∧
      ∀ update ∈ failed, ∃ row ∈ tables.visible, row.record.outboxID = update.outboxID ∧
        row.record.relayShardID = shard

variable {phase : RelayPhase Body}

/-- The rows of a phase stay when the rows of its shard do. -/
theorem RelayPhase.Sound.mono {tables next : Tables Body} {locks locks' : ℕ → Option (ℕ × ℕ)}
    {succeeded later : List (Record Body)} {session : ℕ}
    (sound : phase.Sound tables locks succeeded session)
    (held : ∀ shard, Holds locks session shard → Holds locks' session shard)
    (rows : ∀ shard, Holds locks session shard → ∀ row ∈ tables.visible, row.record.relayShardID = shard →
      row ∈ next.visible)
    (grown : ∀ record ∈ succeeded, record ∈ later) : phase.Sound next locks' later session := by
  cases phase with
  | scanning => trivial
  | holding shard | unlocking shard failed => exact held shard sound
  | publishing shard heads =>
    obtain ⟨holds, heads⟩ := sound
    refine ⟨held shard holds, fun row member => ?_⟩
    obtain ⟨visible, sharded⟩ := heads row member
    exact ⟨rows shard holds row visible sharded, sharded⟩
  | reported shard delivered failed =>
    obtain ⟨holds, successes, failures⟩ := sound
    refine ⟨held shard holds, fun id member => ?_, fun update member => ?_⟩
    · obtain ⟨row, visible, same, sharded, published⟩ := successes id member
      exact ⟨row, rows shard holds row visible sharded, same, sharded, grown _ published⟩
    · obtain ⟨row, visible, same, sharded⟩ := failures update member
      exact ⟨row, rows shard holds row visible sharded, same, sharded⟩

/-- The record before this one in its stream. -/
def Record.Follows (record earlier : Record Body) : Prop :=
  earlier.streamKey = record.streamKey ∧ earlier.streamSequence + 1 = record.streamSequence

/-- No record after the first of its stream is in the log before its predecessor. -/
def InOrder (log : List (Record Body)) : Prop :=
  ∀ before record after, log = before ++ record :: after → 1 < record.streamSequence →
    ∃ earlier ∈ before, record.Follows earlier

theorem InOrder.append {log : List (Record Body)} {record : Record Body} (ordered : InOrder log)
    (follows : 1 < record.streamSequence → ∃ earlier ∈ log, record.Follows earlier) : InOrder (log ++ [record]) := by
  intro before middle after split later
  rcases append_eq_append_iff.mp split with ⟨more, rfl, rest⟩ | ⟨more, rfl, rest⟩
  · cases more with
    | nil =>
      simp only [nil_append, cons.injEq] at rest
      obtain ⟨rfl, rfl⟩ := rest
      simpa using follows later
    | cons first rest' => simp at rest
  · cases more with
    | nil =>
      simp only [nil_append, cons.injEq] at rest
      obtain ⟨rfl, rfl⟩ := rest
      simpa using follows later
    | cons first more =>
      simp only [cons_append, cons.injEq] at rest
      obtain ⟨rfl, rfl⟩ := rest
      exact ordered before middle more rfl later

namespace Relay

section Results

variable {heads : List (Row Body)} {results : List (Option ℤ)}

theorem mem_of_mem_delivered {row : Row Body} (success : row ∈ delivered heads results) : row ∈ heads := by
  obtain ⟨pair, listed, rfl⟩ := mem_map.mp success
  exact (of_mem_zip (mem_filter.mp listed).1).1

theorem of_mem_failedUpdates {update : FailedUpdate} (failure : update ∈ failedUpdates heads results) :
    ∃ row ∈ heads, update.outboxID = row.record.outboxID := by
  obtain ⟨pair, listed, made⟩ := mem_filterMap.mp failure
  obtain ⟨nextAttemptAt, _, rfl⟩ := map_eq_some_iff.mp made
  exact ⟨pair.1, (of_mem_zip listed).1, rfl⟩

end Results

structure Sound (relay : Relay Body) : Prop where
  tables : relay.tables.Sound
  workers : ∀ session worker, relay.workers session = some worker →
    worker.phase.Sound relay.tables relay.locks relay.succeeded session
  handed : ∀ record ∈ relay.log, record ∈ relay.handed
  final : ∀ record ∈ relay.succeeded, record ∈ relay.log
  ordered : ∀ record ∈ relay.handed, 1 < record.streamSequence → ∃ earlier ∈ relay.succeeded, record.Follows earlier
  kept : ∀ record ∈ relay.tables.history,
    (∃ row ∈ relay.tables.visible, row.record = record) ∨ record ∈ relay.succeeded
  log : InOrder relay.log

theorem sound_start : Sound ({} : Relay Body) where
  tables := sound_empty
  workers _ _ found := by cases found
  handed _ member := by cases member
  final _ member := by cases member
  ordered _ member := by cases member
  kept _ member := by cases member
  log before record after split := by simp at split

namespace Sound

variable {relay next : Relay Body} {session shard : ℕ} {worker : Worker Body} (sound : relay.Sound)

include sound

/-- A writer moves. -/
theorem write {tables : Tables Body} (grown : relay.tables.Grows tables) (kept : tables.Sound) :
    ({ relay with tables } : Relay Body).Sound :=
  { sound with
    tables := kept
    workers := fun session worker found => (sound.workers session worker found).mono (fun _ held => held)
      (fun _ _ row visible _ => grown.kept row visible) fun _ member => member
    kept := fun record member => by
      rcases grown.added record member with old | new
      · rcases sound.kept record old with ⟨row, visible, same⟩ | published
        · exact .inl ⟨row, grown.kept row visible, same⟩
        · exact .inr published
      · exact .inl new }

section

variable {locks : ℕ → Option (ℕ × ℕ)}
  (others : ∀ other shard, other ≠ session → Holds relay.locks other shard → Holds locks other shard)

include others

/-- A worker moves to another phase, and only the locks it takes or leaves change. -/
theorem move {shards : List ℕ} (mine : phase.Sound relay.tables locks relay.succeeded session) :
    (({ relay with locks } : Relay Body).setWorker session phase shards).Sound :=
  { sound with
    workers := Pool.All.set_of mine fun other worker self found =>
      (sound.workers other worker found).mono (fun shard held => others other shard self held)
        (fun _ _ _ visible _ => visible) fun _ member => member }

/-- A worker ends. -/
theorem drop : ({ relay with locks, workers := relay.workers.drop session } : Relay Body).Sound :=
  { sound with
    workers := Pool.All.drop_of fun other worker self found =>
      (sound.workers other worker found).mono (fun shard held => others other shard self held)
        (fun _ _ _ visible _ => visible) fun _ member => member }

end

/-- The head of a stream follows a record that has succeeded. -/
theorem head_follows {now : ℤ} {limit : ℕ} {head : Row Body}
    (selected : head ∈ relay.tables.selectHeads shard now limit) (later : 1 < head.record.streamSequence) :
    ∃ earlier ∈ relay.succeeded, head.record.Follows earlier := by
  obtain ⟨visible, sharded, first⟩ := selectHeads_spec selected
  obtain ⟨stored, owner⟩ := mem_visible.mp visible
  have committed := sound.tables.stored head stored owner
  obtain ⟨earlier, before, stream, shard, sequence⟩ := sound.tables.exists_predecessor committed later
  rcases sound.kept earlier before with ⟨row, shown, rfl⟩ | published
  · have := first row shown (shard.trans sharded) stream
    omega
  · exact ⟨earlier, published, stream, sequence⟩

theorem publish {now : ℤ} {limit : ℕ} {shards : List ℕ} (holds : Holds relay.locks session shard) :
    (({ relay with
        handed := relay.handed ++ (relay.tables.selectHeads shard now limit).map Row.record } : Relay Body).setWorker
      session (.publishing shard (relay.tables.selectHeads shard now limit)) shards).Sound := by
  have wider : ({ relay with
      handed := relay.handed ++ (relay.tables.selectHeads shard now limit).map Row.record } : Relay Body).Sound :=
    { sound with
      handed := fun record member => mem_append_left _ (sound.handed record member)
      ordered := fun record member later => by
        rcases mem_append.mp member with old | new
        · exact sound.ordered record old later
        · obtain ⟨head, selected, rfl⟩ := mem_map.mp new
          exact sound.head_follows selected later }
  refine wider.move (fun _ _ _ held => held) ⟨holds, fun row selected => ?_⟩
  obtain ⟨visible, sharded, _⟩ := selectHeads_spec selected
  exact ⟨visible, sharded⟩

theorem deliver {record : Record Body} (known : record ∈ relay.handed) :
    ({ relay with log := relay.log ++ [record] } : Relay Body).Sound :=
  { sound with
    handed := fun other member => by
      rcases mem_append.mp member with old | new
      · exact sound.handed other old
      · exact mem_singleton.mp new ▸ known
    final := fun other member => mem_append_left _ (sound.final other member)
    log := sound.log.append fun later => by
      obtain ⟨earlier, published, follows⟩ := sound.ordered record known later
      exact ⟨earlier, sound.final earlier published, follows⟩ }

theorem report {heads : List (Row Body)} {results : List (Option ℤ)} {shards : List ℕ}
    (publishing : (RelayPhase.publishing shard heads).Sound relay.tables relay.locks relay.succeeded session)
    (published : ∀ row ∈ delivered heads results, row.record ∈ relay.log) :
    (({ relay with
        succeeded := relay.succeeded ++ (delivered heads results).map Row.record } : Relay Body).setWorker session
      (.reported shard ((delivered heads results).map fun row : Row Body => row.record.outboxID)
        (failedUpdates heads results)) shards).Sound := by
  have wider : ({ relay with
      succeeded := relay.succeeded ++ (delivered heads results).map Row.record } : Relay Body).Sound :=
    { sound with
      workers := fun other worker found => (sound.workers other worker found).mono (fun _ held => held)
        (fun _ _ _ visible _ => visible) fun _ member => mem_append_left _ member
      final := fun record member => by
        rcases mem_append.mp member with old | new
        · exact sound.final record old
        · obtain ⟨row, success, rfl⟩ := mem_map.mp new
          exact published row success
      ordered := fun record member later => by
        obtain ⟨earlier, old, follows⟩ := sound.ordered record member later
        exact ⟨earlier, mem_append_left _ old, follows⟩
      kept := fun record member => (sound.kept record member).imp_right (mem_append_left _) }
  obtain ⟨holds, rows⟩ := publishing
  refine wider.move (fun _ _ _ held => held) ⟨holds, fun id member => ?_, fun update member => ?_⟩
  · obtain ⟨row, success, rfl⟩ := mem_map.mp member
    obtain ⟨visible, sharded⟩ := rows row (mem_of_mem_delivered success)
    exact ⟨row, visible, rfl, sharded, mem_append_right _ (mem_map_of_mem success)⟩
  · obtain ⟨row, among, same⟩ := of_mem_failedUpdates member
    obtain ⟨visible, sharded⟩ := rows row among
    exact ⟨row, visible, same.symm, sharded⟩

/-- A worker acknowledges its own rows: delivered rows have succeeded, and rows of other shards stay
as they are. -/
theorem acknowledge {delivered : List ℤ} {failed : List FailedUpdate}
    (reported : (RelayPhase.reported shard delivered failed).Sound relay.tables relay.locks relay.succeeded session)
    {shards : List ℕ}
    (mine : phase.Sound ((relay.tables.deleteDelivered delivered).updateFailed failed) relay.locks relay.succeeded
      session) :
    ((relay.acknowledge delivered failed).setWorker session phase shards).Sound := by
  obtain ⟨holds, successes, failures⟩ := reported
  have undelivered {row : Row Body} (visible : row ∈ relay.tables.visible)
      (absent : row.record.outboxID ∉ delivered) :
      row.backOff failed ∈ ((relay.tables.deleteDelivered delivered).updateFailed failed).visible := by
    obtain ⟨stored, owner⟩ := mem_visible.mp visible
    have left : row ∈ (relay.tables.deleteDelivered delivered).events :=
      mem_filter.mpr ⟨stored, by simp [absent]⟩
    exact mem_visible.mpr ⟨mem_map_of_mem left, by simpa using owner⟩
  have elsewhere {row : Row Body} (visible : row ∈ relay.tables.visible) (other : row.record.relayShardID ≠ shard) :
      row ∈ ((relay.tables.deleteDelivered delivered).updateFailed failed).visible := by
    have untouched : row.backOff failed = row := backOff_eq_self fun update member same => by
      obtain ⟨head, shown, id, sharded⟩ := failures update member
      exact other (sound.tables.row_unique shown visible (id.trans same) ▸ sharded)
    refine untouched ▸ undelivered visible fun member => ?_
    obtain ⟨head, shown, id, sharded, _⟩ := successes _ member
    exact other (sound.tables.row_unique shown visible id ▸ sharded)
  have acknowledged : ∀ other worker, other ≠ session → relay.workers other = some worker →
      worker.phase.Sound ((relay.tables.deleteDelivered delivered).updateFailed failed) relay.locks relay.succeeded
        other := by
    intro other worker ne found
    refine (sound.workers other worker found).mono (fun _ held => held) ?_ fun _ member => member
    intro theirs held row visible sharded
    refine elsewhere visible fun same => ne ?_
    obtain ⟨depth, lock⟩ := holds
    obtain ⟨depth', lock'⟩ := held
    rw [← sharded, same, lock] at lock'
    cases lock'
    rfl
  exact
    { sound with
      tables := (sound.tables.deleteDelivered delivered).updateFailed failed
      workers := Pool.All.set_of mine acknowledged
      kept := fun record member => by
        rcases sound.kept record member with ⟨row, visible, rfl⟩ | published
        · by_cases success : row.record.outboxID ∈ delivered
          · obtain ⟨head, shown, id, _, published⟩ := successes _ success
            exact .inr (sound.tables.row_unique shown visible id ▸ published)
          · exact .inl ⟨_, undelivered visible success, by simp⟩
        · exact .inr published }

end Sound

section Locks

variable {relay : Relay Body} {session shard other theirs : ℕ} {locks : ℕ → Option (ℕ × ℕ)}

theorem tryLock_eq_some (taken : relay.tryLock session shard = some locks) :
    (∀ holder depth, relay.locks shard = some (holder, depth) → holder = session) ∧
      ∃ depth, locks = Function.update relay.locks shard (some (session, depth)) := by
  unfold tryLock at taken
  split at taken
  · next free =>
    cases taken
    refine ⟨fun _ _ held => ?_, 1, rfl⟩
    cases free.symm.trans held
  · next holder depth held =>
    split_ifs at taken with self
    cases taken
    refine ⟨fun _ _ again => ?_, depth + 1, rfl⟩
    cases held.symm.trans again
    exact self

theorem holds_unlock (ne : other ≠ session) (held : Holds relay.locks other theirs) :
    Holds (relay.unlock session shard) other theirs := by
  unfold unlock
  split
  · exact held
  · next holder depth lock =>
    by_cases self : holder = session
    · rw [if_pos self]
      obtain ⟨depth', lock'⟩ := held
      by_cases same : theirs = shard
      · rw [same, lock] at lock'
        cases lock'
        exact absurd self ne
      · exact ⟨depth', by rwa [Function.update_of_ne same]⟩
    · rw [if_neg self]
      exact held

end Locks

section Steps

variable [DecidableEq Body] {relay next : Relay Body} {event : RelayEvent Body} {session : ℕ} {worker : Worker Body}

theorem Sound.stepWorker (sound : relay.Sound) (found : relay.workers session = some worker)
    (stepped : relay.stepWorker session worker event = some next) : next.Sound := by
  have known := sound.workers session worker found
  cases event with simp only [Relay.stepWorker] at stepped
  | tryLock =>
    split at stepped
    · next shard rest _ _ =>
      split at stepped
      · next locks taken =>
        cases stepped
        obtain ⟨own, depth, rfl⟩ := tryLock_eq_some taken
        refine sound.move (fun other theirs ne held => ?_) ⟨depth, Function.update_self ..⟩
        obtain ⟨deep, lock⟩ := held
        by_cases same : theirs = shard
        · exact absurd (own other deep (same ▸ lock)) ne
        · exact ⟨deep, by rwa [Function.update_of_ne same]⟩
      · cases stepped
        exact sound.move (fun _ _ _ held => held) trivial
    · cases stepped
  | finish =>
    split at stepped
    · cases stepped
      exact sound.drop fun _ _ _ held => held
    · cases stepped
  | selectHeads _ now limit =>
    split at stepped
    · next shard phase =>
      rw [phase] at known
      split at stepped
      · cases stepped
        exact sound.move (fun _ _ _ held => held) known
      · next heads _ =>
        cases stepped
        exact sound.publish known
    · cases stepped
  | leaveShard _ failed =>
    split at stepped
    · next shard phase =>
      rw [phase] at known
      cases stepped
      exact sound.move (fun _ _ _ held => held) known
    · cases stepped
  | report _ results =>
    split at stepped
    · next shard heads phase =>
      rw [phase] at known
      split_ifs at stepped with valid
      cases stepped
      exact sound.report known valid.2
    · cases stepped
  | acknowledge _ outcome =>
    split at stepped
    · next shard delivered failed phase =>
      rw [phase] at known
      cases outcome with
      | committed | lost =>
        cases stepped
        exact sound.acknowledge known known.1
      | failed =>
        cases stepped
        exact sound.move (fun _ _ _ held => held) known.1
    · cases stepped
  | unlock _ executed answered =>
    split at stepped
    · next shard failed phase =>
      have others : ∀ other theirs, other ≠ session → Holds relay.locks other theirs →
          Holds (if executed = true then relay.unlock session shard else relay.locks) other theirs := by
        intro other theirs ne held
        split_ifs
        · exact holds_unlock ne held
        · exact held
      by_cases clean : failed = false ∧ answered = true
      · rw [if_pos clean] at stepped
        cases stepped
        exact sound.move others trivial
      · rw [if_neg clean] at stepped
        cases stepped
        exact sound.drop others
    · cases stepped
  | _ => cases stepped

theorem Sound.step (sound : relay.Sound) (stepped : relay.step event = some next) : next.Sound := by
  cases event with
  | ensureStream tx streamKey shardCount =>
    obtain ⟨shard, _, stepped⟩ := bind_eq_some_iff.mp stepped
    obtain ⟨tables, ensured, rfl⟩ := map_eq_some_iff.mp stepped
    exact sound.write (grows_ensureStream ensured) (sound.tables.ensureStream ensured)
  | reserveSequences tx streamKey count =>
    obtain ⟨tables, reserved, rfl⟩ := map_eq_some_iff.mp stepped
    exact sound.write (grows_reserveSequences reserved) (sound.tables.reserveSequences reserved)
  | insertBatch tx drafts =>
    obtain ⟨tables, inserted, rfl⟩ := map_eq_some_iff.mp stepped
    exact sound.write (grows_insertBatch inserted) (sound.tables.insertBatch inserted)
  | commit tx =>
    obtain ⟨tables, committed, rfl⟩ := map_eq_some_iff.mp stepped
    exact sound.write (grows_commit committed) (sound.tables.commit committed)
  | rollback tx =>
    cases stepped
    exact sound.write (grows_rollback relay.tables tx) (sound.tables.rollback tx)
  | listReadyShards session now =>
    simp only [Relay.step] at stepped
    split at stepped
    · cases stepped
      exact sound.move (fun _ _ _ held => held) trivial
    · cases stepped
  | deliver record =>
    simp only [Relay.step] at stepped
    split_ifs at stepped with known
    cases stepped
    exact sound.deliver known
  | crash session =>
    cases stepped
    refine sound.drop fun other theirs ne held => ?_
    obtain ⟨depth, lock⟩ := held
    exact ⟨depth, by simp [lock, ne]⟩
  | _ =>
    obtain ⟨worker, found, stepped⟩ := bind_eq_some_iff.mp stepped
    exact sound.stepWorker found stepped

end Steps

/-- In every run of any number of writers and workers: the committed records of a stream count up from
one in the order of the commits; a record reaches the log, and is handed to the producer at all, only
after its predecessor has, the latter with success; and a committed record is in the table until it has
been published with success. -/
theorem relay_keeps_order_and_records [DecidableEq Body] {events : List (RelayEvent Body)} {relay : Relay Body}
    (run : relayMachine.run {} events = some relay) :
    (∀ streamKey, (inStream streamKey relay.tables.history).map (·.streamSequence) =
      List.range' 1 (relay.tables.last streamKey)) ∧
    InOrder relay.log ∧
    (∀ record ∈ relay.handed, 1 < record.streamSequence → ∃ earlier ∈ relay.succeeded, record.Follows earlier) ∧
    (∀ record ∈ relay.succeeded, record ∈ relay.log) ∧
    ∀ record ∈ relay.tables.history, (∃ row ∈ relay.tables.visible, row.record = record) ∨ record ∈ relay.succeeded := by
  have sound : relay.Sound := Machine.invariant_run (fun _ _ _ sound step => sound.step step) run sound_start
  exact ⟨sound.tables.sequences, sound.log, sound.ordered, sound.final, sound.kept⟩


/-- Two writers with different shard counts, and a worker that takes over from one that has crashed
while it was publishing. -/
def handover : List (RelayEvent ℕ) :=
  [.ensureStream 1 "7" 4, .reserveSequences 1 "7" 1, .insertBatch 1 [⟨101, 5, 10⟩], .commit 1,
    .ensureStream 2 "7" 8, .reserveSequences 2 "7" 1, .insertBatch 2 [⟨102, 6, 20⟩], .commit 2,
    .listReadyShards 1 0, .tryLock 1, .selectHeads 1 0 10, .deliver ⟨101, "7", 2, 1, 5, 10⟩, .crash 1,
    .listReadyShards 2 1, .tryLock 2, .selectHeads 2 1 10, .deliver ⟨101, "7", 2, 1, 5, 10⟩, .report 2 [none],
    .acknowledge 2 .committed, .selectHeads 2 2 10, .deliver ⟨102, "7", 2, 2, 6, 20⟩]

theorem handover_in_order : ∃ relay : Relay ℕ, relayMachine.run {} handover = some relay ∧
    relay.log.map (·.streamSequence) = [1, 1, 2] ∧ InOrder relay.log := by
  exact Machine.exists_run rfl fun run => ⟨rfl, (relay_keeps_order_and_records run).2.1⟩

end Relay

end Cordis.Outbox
