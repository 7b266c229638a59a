import Cordis.Kafka.CommitSafety

/-! # Commit backpressure over many partitions

The workers and the client deal with each partition apart, and a flush, a revocation or the shutdown
of several partitions is a step of each of them. What is accounted for one partition in every run of
its own is therefore accounted for in every run of all.
-/

namespace Cordis.Kafka

/-- The consumer over the partitions of its assignment. -/
def partitionsMachine {Partition : Type*} [DecidableEq Partition] (cfg : Config) (logs : Partition → PartitionLog) :
    Machine (Partition → PartitionNode) (Partition × PartitionEvent) :=
  Machine.many fun partition => partitionMachine cfg (logs partition)

namespace PartitionNode

variable {cfg : Config} {log : PartitionLog} {node next : PartitionNode}

/-- The steps of a flush that succeeds. -/
def Flushes (event : PartitionEvent) : Prop := event ∈ [.flushTake, .flushCommit, .flushReturn .ok]

/-- Flushes alone can lead to where the worker is not paused for the committer. -/
def Releasable (cfg : Config) (log : PartitionLog) (node : PartitionNode) : Prop :=
  ∃ flushes next, (∀ event ∈ flushes, Flushes event) ∧ (partitionMachine cfg log).run node flushes = some next ∧
    next.worker = node.worker ∧ .commit ∉ next.pauseReasons

theorem Releasable.of_step {event : PartitionEvent} (step : (partitionMachine cfg log).step node event = some next)
    (flushes : Flushes event) (same : next.worker = node.worker) (released : Releasable cfg log next) :
    Releasable cfg log node := by
  obtain ⟨events, final, all, run, kept, clear⟩ := released
  refine ⟨event :: events, final, List.forall_mem_cons.mpr ⟨flushes, all⟩, ?_, kept.trans same, clear⟩
  exact Machine.run_cons_eq_some.mpr ⟨next, step, run⟩

namespace Accounted

variable (accounted : node.Accounted) {id : ℕ} (assigned : node.worker = some id)

include accounted assigned

theorem releasable_of_unmarked (unmarked : node.backpressured = false) : node.Releasable cfg log := by
  refine ⟨[], node, by rintro _ ⟨⟩, rfl, rfl, fun paused => ?_⟩
  cases unmarked.symm.trans ((accounted.paused id assigned).mp paused)

/-- The flush in progress succeeds. What it leaves is less than the limit, or there is more pending. -/
theorem flushReturn (cfg : Config) (log : PartitionLog) {record : Record} {count : ℕ} (flushing : node.flush = .committing record count) :
    ∃ next, (partitionMachine cfg log).step node (.flushReturn .ok) = some next ∧ next.Accounted ∧
      next.worker = some id ∧ next.flush = .idle ∧
      (node.uncommitted - count < cfg.maxUncommitted → next.backpressured = false) := by
  have step : (partitionMachine cfg log).step node (.flushReturn .ok) = some
      ({ node with flush := .idle, committed := record.offset + 1 }.acknowledge cfg count) := by
    simp only [partitionMachine, PartitionNode.step, PartitionNode.stepCommitter, flushing, commitRecords]
  refine ⟨_, step, accounted.acknowledge flushing, ?_⟩
  unfold PartitionNode.acknowledge
  split_ifs with released
  · obtain ⟨_, _, same, _⟩ := accounted.exists_setCommitBackpressure false
    rw [same]
    exact ⟨assigned, rfl, fun _ => rfl⟩
  · exact ⟨assigned, rfl, fun few => Bool.eq_false_iff.mpr fun marked => released ⟨marked, few⟩⟩

/-- A flush of the pending offset stands for all that is counted. -/
theorem releasable_of_idle (idle : node.flush = .idle) : node.Releasable cfg log := by
  obtain ⟨_, free, alive⟩ := accounted.assigned id assigned
  cases pending : node.pendingOffset with
  | none =>
    refine accounted.releasable_of_unmarked assigned (Bool.eq_false_iff.mpr fun marked => ?_)
    exact (accounted.marked alive marked).elim (· pending) (· idle)
  | some record =>
    have working : node.committerDone = false :=
      Bool.eq_false_iff.mpr fun done => by cases alive.symm.trans (accounted.committerDone done)
    have take : (partitionMachine cfg log).step node .flushTake = some
        { node with pendingOffset := none, flush := .taken record node.uncommitted } := by
      simp [partitionMachine, PartitionNode.step, PartitionNode.stepCommitter, idle, pending, free, Revoke.locks, working]
    have commit : (partitionMachine cfg log).step
        { node with pendingOffset := none, flush := .taken record node.uncommitted } .flushCommit = some
        { node with pendingOffset := none, flush := .committing record node.uncommitted } := rfl
    have committing := ((accounted.step take).1.step commit).1
    obtain ⟨next, step, settled, kept, _, released⟩ := committing.flushReturn assigned cfg log rfl
    refine .of_step take (.head _) rfl (.of_step commit (.tail _ (.head _)) rfl ?_)
    refine .of_step step (.tail _ (.tail _ (.head _))) (kept.trans assigned.symm) ?_
    exact settled.releasable_of_unmarked kept (released (by simpa using cfg.maxUncommitted_pos))

theorem releasable_of_committing {record : Record} {count : ℕ} (flushing : node.flush = .committing record count) :
    node.Releasable cfg log := by
  obtain ⟨next, step, settled, kept, idle, _⟩ := accounted.flushReturn assigned cfg log flushing
  refine .of_step step (.tail _ (.tail _ (.head _))) (kept.trans assigned.symm) ?_
  exact settled.releasable_of_idle kept idle

theorem releasable : node.Releasable cfg log := by
  cases flushing : node.flush with
  | idle => exact accounted.releasable_of_idle assigned flushing
  | committing => exact accounted.releasable_of_committing assigned flushing
  | taken record count =>
    have commit : (partitionMachine cfg log).step node .flushCommit = some
        { node with flush := .committing record count } := by
      simp only [partitionMachine, PartitionNode.step, PartitionNode.stepCommitter, flushing]
    refine .of_step commit (.tail _ (.head _)) rfl ?_
    exact (accounted.step commit).1.releasable_of_committing assigned rfl

end Accounted

end PartitionNode

/-- In every state of a run, before the partition's stop: a partition with completed records that are
not committed, or with a backpressure mark, has an offset pending or in flight; its worker is paused
for the committer exactly while it is marked, and flushes can release it; and a flush commits only
records that the last assigned worker has completed, and none once a revocation has dropped them. -/
theorem backpressure_accounted {Partition : Type*} [DecidableEq Partition] {cfg : Config}
    {logs : Partition → PartitionLog} {committed : Partition → ℕ} {events : List (Partition × PartitionEvent)}
    {nodes : Partition → PartitionNode}
    (run : (partitionsMachine cfg logs).run (fun partition => { committed := committed partition }) events = some nodes)
    (partition : Partition) (alive : (nodes partition).stopped = false) :
    (0 < (nodes partition).uncommitted ∨ (nodes partition).backpressured = true →
      (nodes partition).pendingOffset ≠ none ∨ (nodes partition).flush ≠ .idle) ∧
    (∀ id, (nodes partition).worker = some id →
      (.commit ∈ (nodes partition).pauseReasons ↔ (nodes partition).backpressured = true) ∧
      (nodes partition).Releasable cfg (logs partition)) ∧
    (∀ record, (nodes partition).commitCall .flushCommit = some record → (nodes partition).Owned record ∧
      ((nodes partition).worker = none → ¬ (nodes partition).revoke.Dropped)) := by
  have accounted : (nodes partition).Accounted := by
    refine @Machine.invariant_many _ _ _ _ _ (fun _ => PartitionNode.Accounted) ?_ _ _ _ run
      (fun partition => PartitionNode.accounted_start _) partition
    exact fun _ _ _ _ accounted step => (accounted.step step).1
  refine ⟨?_, fun id assigned => ⟨accounted.paused id assigned, accounted.releasable assigned⟩, fun record call => ?_⟩
  · rintro (counted | marked)
    · by_cases idle : (nodes partition).flush = .idle
      · exact .inl (accounted.counted alive (by rw [idle]; exact counted))
      · exact .inr idle
    · exact accounted.marked alive marked
  · have held := PartitionNode.holds_of_commitCall call
    refine ⟨accounted.owned record held, fun unassigned dropped => ?_⟩
    have idle := (accounted.dropped alive unassigned dropped).2
    simp only [PartitionNode.commitCall, idle, reduceCtorEq] at call

/-- Two partitions: the first is marked with its first completed record, and its flush is under way;
the second is revoked and assigned again while its old worker still works. -/
def revokedBesideFlush : List (Bool × PartitionEvent) :=
  [(true, .assign), (false, .assign), (true, .poll 1), (true, .enqueue), (true, .receive 1), (true, .handled 1 .ok),
    (true, .mark 1), (false, .poll 1), (false, .enqueue), (false, .receive 1), (true, .flushTake), (false, .revoke true),
    (false, .revokeCancel), (false, .revokeDeactivate), (false, .revokeCollect), (false, .revokeDrop), (false, .assign)]

theorem revokedBesideFlush_accounted : ∃ nodes,
    (partitionsMachine { maxUncommittedRecords := 1 } fun _ : Bool => shortLog).run (fun _ => { committed := 0 })
        revokedBesideFlush = some nodes ∧
      (nodes true).stopped = false ∧ .commit ∈ (nodes true).pauseReasons ∧ (nodes true).flush ≠ .idle ∧
      (nodes true).Releasable { maxUncommittedRecords := 1 } shortLog ∧ .commit ∉ (nodes false).pauseReasons := by
  refine Machine.exists_run rfl fun run => ?_
  obtain ⟨first, second, _⟩ := backpressure_accounted run true (by decide)
  obtain ⟨_, other, _⟩ := backpressure_accounted run false (by decide)
  obtain ⟨paused, releasable⟩ := second 1 (by decide)
  refine ⟨by decide, paused.mpr ?_, (first (.inr ?_)).resolve_left ?_, releasable, fun bit => ?_⟩
  any_goals decide
  exact absurd ((other 2 (by decide)).1.mp bit) (by decide)

end Cordis.Kafka
