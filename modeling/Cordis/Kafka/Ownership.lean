import Cordis.Kafka.Partition

/-! # Whose offsets are committed, and what is counted for them

Every offset that the committer, a revocation or the shutdown still holds is a completed record of
the last assigned worker. A revocation silences the worker before it reads its watermark, waits for a
running flush, and drops the pending offset; so nothing of the old worker is left when the partition
is assigned again. A shutdown prevents any further assignment.

The committer counts the completed records and marks the partition when there are too many of them.
Neither the count nor the mark outlives the offset that is to be committed for them, and fetching is
paused for the committer exactly while the mark is there. Nothing here depends on which records the
workers are given.
-/

namespace Cordis.Kafka

open Finset Option

theorem Config.maxUncommitted_pos (cfg : Config) : 0 < cfg.maxUncommitted := by
  simp only [maxUncommitted, withDefaults]
  split_ifs <;> omega

theorem laterOffset_ne_none {pending : Option Record} {record : Record} : laterOffset pending record ≠ none := by
  unfold laterOffset
  split
  · rintro ⟨⟩
  · split_ifs <;> rintro ⟨⟩

def Flush.record : Flush → Option Record
  | .idle => none
  | .taken record _ | .committing record _ => some record

/-- How many completed records the flush stands for. -/
def Flush.count : Flush → ℕ
  | .idle => 0
  | .taken _ count | .committing _ count => count

def Revoke.record : Revoke → Option Record
  | .collected record _ => record
  | .calling record | .committing record => some record
  | _ => none

/-- The worker a revocation has removed and not yet read the watermark of. -/
def Revoke.target : Revoke → Option ℕ
  | .removed worker _ => worker
  | .cancelled worker _ | .inactive worker _ => some worker
  | _ => none

/-- The worker of the revocation, if there was one, completes nothing any more. -/
def Revoke.Quiet : Revoke → Prop
  | .removed (some _) _ | .cancelled _ _ => False
  | _ => True

/-- The pending offset has been dropped and no flush is under way. -/
def Revoke.Dropped : Revoke → Prop
  | .idle | .calling _ | .committing _ => True
  | _ => False

theorem Revoke.Dropped.quiet {revoke : Revoke} (dropped : revoke.Dropped) : revoke.Quiet := by
  cases revoke with
  | removed | cancelled => exact dropped.elim
  | _ => trivial

def Shutdown.record : Shutdown → Option Record
  | .calling record | .committing record => some record
  | _ => none

def Shutdown.target : Shutdown → Option ℕ
  | .removed worker | .cancelling worker | .inactive worker | .joined worker => worker
  | .cancelled worker => some worker
  | _ => none

namespace PartitionNode

variable {cfg : Config} {node : PartitionNode}

/-- A step is one of the client, a worker, the committer, a revocation or the shutdown. -/
theorem step_cases {log : PartitionLog} {event : PartitionEvent} {next : PartitionNode}
    (step : (partitionMachine cfg log).step node event = some next) :
    node.stepClient cfg log event = some next ∨ node.stepWorker cfg event = some next ∨
      node.stepCommitter cfg event = some next ∨ node.stepRevoke event = some next ∨
      node.stepShutdown event = some next := by
  simp only [partitionMachine, PartitionNode.step] at step
  split at step <;> simp only [step, true_or, or_true]

theorem pauseLocked_eq (node : PartitionNode) (reason : PauseReason) :
    node.pauseLocked reason = { node with
      pauseReasons := insert reason node.pauseReasons
      fetchPaused := node.fetchPaused || decide (node.pauseReasons = ∅) } := by
  unfold pauseLocked
  split_ifs with paused none
  · have some : node.pauseReasons ≠ ∅ := ne_empty_of_mem paused
    simp [insert_eq_of_mem paused, some]
  · simp [none]
  · simp [none]

theorem resumeLocked_eq (node : PartitionNode) (reasons : Finset PauseReason) :
    node.resumeLocked reasons = { node with
      pauseReasons := node.pauseReasons \ reasons
      fetchPaused := node.fetchPaused &&
        decide (node.pauseReasons ∩ reasons = ∅ ∨ node.pauseReasons \ reasons ≠ ∅) } := by
  unfold resumeLocked
  split_ifs with apart left
  · have kept : node.pauseReasons \ reasons = node.pauseReasons := by
      refine Subset.antisymm sdiff_subset fun reason paused => ?_
      refine mem_sdiff.mpr ⟨paused, fun cleared => ?_⟩
      exact absurd (mem_inter.mpr ⟨paused, cleared⟩) (apart ▸ notMem_empty reason)
    simp [apart, kept]
  · simp [left]
  · simp [apart, not_not.mp left]

theorem setCommitBackpressure_of_none (unassigned : node.worker = none) (blocked : Bool) :
    node.setCommitBackpressure blocked = node :=
  if_pos (.inl unassigned)

theorem setCommitBackpressure_of_some {id : ℕ} (assigned : node.worker = some id) (alive : node.stopped = false)
    (blocked : Bool) :
    node.setCommitBackpressure blocked = if blocked then node.pauseLocked .commit else node.resumeLocked {.commit} :=
  if_neg (by simp [assigned, alive])

/-- Somebody is going to commit the record. -/
def Holds (node : PartitionNode) (record : Record) : Prop :=
  node.pendingOffset = some record ∨ node.flush.record = some record ∨
    node.revoke.record = some record ∨ node.shutdown.record = some record

/-- The record is one that the last assigned worker has completed. -/
def Owned (node : PartitionNode) (record : Record) : Prop :=
  ∃ worker, node.heap node.assignments = some worker ∧ record ∈ worker.finished

structure Accounted (node : PartitionNode) : Prop where
  latest : node.heap.All fun id worker => worker.active = true → id = node.assignments
  watermark : node.heap.All fun _ worker => ∀ record ∈ worker.lastCompleted, record ∈ worker.finished
  assigned : ∀ id, node.worker = some id → id = node.assignments ∧ node.revoke = .idle ∧ node.stopped = false
  cancelled : node.cancelled = true → node.stopped = true
  committerDone : node.committerDone = true → node.stopped = true
  running : node.stopped = false → node.shutdown = .running
  owned : ∀ record, node.Holds record → node.Owned record
  revoked : ∀ id, node.revoke.target = some id → id = node.assignments
  stopping : ∀ id, node.shutdown.target = some id → id = node.assignments
  quiet : node.stopped = false → node.worker = none → node.revoke.Quiet →
    node.heap.All fun _ worker => worker.active = false
  dropped : node.stopped = false → node.worker = none → node.revoke.Dropped →
    node.pendingOffset = none ∧ node.flush = .idle
  /-- What has been completed since the flush began is pending. -/
  counted : node.stopped = false → node.flush.count < node.uncommitted → node.pendingOffset ≠ none
  marked : node.stopped = false → node.backpressured = true → node.pendingOffset ≠ none ∨ node.flush ≠ .idle
  paused : ∀ id, node.worker = some id → (.commit ∈ node.pauseReasons ↔ node.backpressured = true)
  unpaused : node.worker = none → node.pauseReasons = ∅

theorem accounted_start (committed : ℕ) : ({ committed } : PartitionNode).Accounted where
  latest := Pool.all_empty _
  watermark := Pool.all_empty _
  assigned := by rintro _ ⟨⟩
  cancelled := by rintro ⟨⟩
  committerDone := by rintro ⟨⟩
  running _ := rfl
  owned := by rintro _ (none | none | none | none) <;> cases none
  revoked := by rintro _ ⟨⟩
  stopping := by rintro _ ⟨⟩
  quiet _ _ _ := Pool.all_empty _
  dropped _ _ _ := ⟨rfl, rfl⟩
  counted := by rintro _ ⟨⟩
  marked := by rintro _ ⟨⟩
  paused := by rintro _ ⟨⟩
  unpaused _ := rfl

namespace Accounted

variable (accounted : node.Accounted)

include accounted

variable {record : Record} {id : ℕ} {worker : Worker}

/-- While a revocation runs, no worker is assigned. -/
theorem unassigned (busy : node.revoke ≠ .idle) : node.worker = none := by
  rcases eq_none_or_eq_some node.worker with unassigned | ⟨id, assigned⟩
  · exact unassigned
  · exact (busy (accounted.assigned id assigned).2.1).elim

/-- A shutdown that has begun has stopped the node and taken its worker. -/
theorem shuttingDown (begun : node.shutdown ≠ .running) : node.stopped = true ∧ node.worker = none := by
  have stopped : node.stopped = true := Bool.not_eq_false _ ▸ fun alive => begun (accounted.running alive)
  refine ⟨stopped, ?_⟩
  rcases eq_none_or_eq_some node.worker with unassigned | ⟨id, assigned⟩
  · exact unassigned
  · cases stopped.symm.trans (accounted.assigned id assigned).2.2

/-- The completed records of a worker only grow, and a worker that was silenced stays silent. -/
theorem setWorker {old new : Worker} (present : node.heap id = some old)
    (active : new.active = true → old.active = true) (finished : old.finished ⊆ new.finished)
    (watermark : ∀ record ∈ new.lastCompleted, record ∈ new.finished) : (node.setWorker id new).Accounted := by
  refine { accounted with
    latest := accounted.latest.set fun now => accounted.latest id old present (active now)
    watermark := accounted.watermark.set watermark, owned := ?_, quiet := ?_ }
  · intro record holds
    exact Pool.exists_set present (fun _ member => finished member) (accounted.owned record holds)
  · intro alive unassigned silent
    have all := accounted.quiet alive unassigned silent
    refine Pool.All.set all (Bool.eq_false_iff.mpr fun now => ?_)
    cases (all id old present).symm.trans (active now)

/-- A worker moves on without completing anything. -/
theorem moveWorker (present : node.heap id = some worker) {records : List Record} {phase : WorkerPhase}
    {cancelled active : Bool} (silenced : active = true → worker.active = true) :
    (node.setWorker id { worker with records, phase, cancelled, active }).Accounted :=
  accounted.setWorker present silenced (List.Subset.refl _) (accounted.watermark id worker present)

/-- When the last worker is silenced, all are. -/
theorem all_inactive (present : node.heap node.assignments = some worker)
    (silent : worker.active = false) : node.heap.All fun _ worker => worker.active = false := by
  intro id other found
  refine Bool.eq_false_iff.mpr fun active => ?_
  obtain rfl := accounted.latest id other found active
  cases present.symm.trans found
  cases silent.symm.trans active

/-- Fetching is paused and resumed for the worker's sake. -/
theorem setPause (assigned : node.worker = some id) {pauseReasons : Finset PauseReason} {fetchPaused : Bool}
    (same : .commit ∈ pauseReasons ↔ .commit ∈ node.pauseReasons) :
    ({ node with pauseReasons, fetchPaused } : PartitionNode).Accounted := by
  refine { accounted with paused := fun id assigned => ?_, unpaused := fun unassigned => ?_ }
  · exact same.trans (accounted.paused id assigned)
  · cases assigned.symm.trans unassigned

/-- The pause bit of the committer follows the mark. -/
theorem exists_setCommitBackpressure {pendingOffset : Option Record} {flush : Flush} {uncommitted committed : ℕ}
    (blocked : Bool) : ∃ pauseReasons fetchPaused,
      ({ node with pendingOffset, flush, uncommitted, committed, backpressured := blocked } :
          PartitionNode).setCommitBackpressure blocked =
        { node with
          pendingOffset, flush, uncommitted, committed, backpressured := blocked, pauseReasons, fetchPaused } ∧
      (∀ id, node.worker = some id → (.commit ∈ pauseReasons ↔ blocked = true)) ∧
      (node.worker = none → pauseReasons = ∅) := by
  rcases eq_none_or_eq_some node.worker with unassigned | ⟨id, assigned⟩
  · refine ⟨_, _, setCommitBackpressure_of_none (by exact unassigned) _, fun id assigned => ?_, accounted.unpaused⟩
    cases unassigned.symm.trans assigned
  · have alive := (accounted.assigned id assigned).2.2
    rw [setCommitBackpressure_of_some (by exact assigned) (by exact alive)]
    cases blocked with
    | true =>
      refine ⟨_, _, pauseLocked_eq .., fun _ _ => by simp, fun unassigned => ?_⟩
      cases assigned.symm.trans unassigned
    | false =>
      refine ⟨_, _, resumeLocked_eq .., fun _ _ => by simp, fun unassigned => ?_⟩
      cases assigned.symm.trans unassigned

/-- A completed record of the last worker is to be committed. -/
theorem offer (owned : node.Owned record)
    (busy : node.stopped = false → node.worker = none → ¬ node.revoke.Dropped) {uncommitted : ℕ} :
    ({ node with pendingOffset := laterOffset node.pendingOffset record, uncommitted } :
      PartitionNode).Accounted := by
  refine { accounted with
    owned := ?_, dropped := fun alive unassigned dropped => (busy alive unassigned dropped).elim
    counted := fun _ _ => laterOffset_ne_none, marked := fun _ _ => .inl laterOffset_ne_none }
  rintro other (pending | rest)
  · rcases laterOffset_eq_some pending with rfl | held
    · exact owned
    · exact accounted.owned _ (.inl held)
  · exact accounted.owned other (.inr rest)

theorem mark (owned : node.Owned record)
    (busy : node.stopped = false → node.worker = none → ¬ node.revoke.Dropped) : (node.mark cfg record).Accounted := by
  have counted := @offer node accounted record owned busy (node.uncommitted + 1)
  unfold PartitionNode.mark
  dsimp only
  split_ifs
  · obtain ⟨_, _, same, paused, unpaused⟩ := counted.exists_setCommitBackpressure true
    rw [same]
    exact { counted with marked := fun _ _ => .inl laterOffset_ne_none, paused, unpaused }
  · exact counted

/-- `markCompleted` of an active worker: it is the last assigned one, and no revocation has dropped
its offsets. -/
theorem markCompleted (present : node.heap id = some worker) (phase : WorkerPhase) (completed : List Record)
    (active : worker.active = true) :
    ({ node.setWorker id { worker with
        phase, lastCompleted := some record, finished := worker.finished ++ [record] } with
      completed }.mark cfg record).Accounted := by
  obtain rfl := accounted.latest id worker present active
  have moved : (node.setWorker node.assignments { worker with
      phase, lastCompleted := some record, finished := worker.finished ++ [record] }).Accounted :=
    accounted.setWorker present (fun active => active) (List.subset_append_left ..) (by simp)
  have listed : ({ node.setWorker node.assignments { worker with
        phase, lastCompleted := some record, finished := worker.finished ++ [record] } with completed } :
      PartitionNode).Accounted := { moved with }
  refine listed.mark ⟨_, Pool.set_self .., List.mem_append_right _ List.mem_cons_self⟩ ?_
  intro alive unassigned dropped
  have quiet := accounted.quiet alive unassigned dropped.quiet
  cases (quiet _ worker present).symm.trans active

/-- The flush has been taken back: its record is pending again, or the node is stopped. -/
theorem owned_idle {other : Record} (held : node.pendingOffset = some other ∨ Flush.idle.record = some other ∨
      node.revoke.record = some other ∨ node.shutdown.record = some other) : node.Owned other :=
  accounted.owned other (held.imp_right fun rest => .inr (rest.resolve_left (by rintro ⟨⟩)))

/-- A flush that has succeeded accounts for the records it was counted for. -/
theorem acknowledge {count : ℕ} (flushing : node.flush = .committing record count) {committed : ℕ} :
    ({ node with flush := .idle, committed }.acknowledge cfg count).Accounted := by
  have counted (alive : node.stopped = false) (left : 0 < node.uncommitted - count) : node.pendingOffset ≠ none := by
    refine accounted.counted alive ?_
    rw [flushing]
    exact Nat.lt_of_sub_pos left
  have dropped (alive : node.stopped = false) (unassigned : node.worker = none) (dropped : node.revoke.Dropped) :
      node.pendingOffset = none ∧ Flush.idle = .idle :=
    ⟨(accounted.dropped alive unassigned dropped).1, rfl⟩
  unfold PartitionNode.acknowledge
  split_ifs with released
  · obtain ⟨_, _, same, paused, unpaused⟩ := accounted.exists_setCommitBackpressure false
    rw [same]
    exact { accounted with
      owned := fun _ => accounted.owned_idle, dropped, counted, marked := by rintro _ ⟨⟩, paused, unpaused }
  · refine { accounted with
      owned := fun _ => accounted.owned_idle, dropped, counted, marked := fun alive marked => .inl (counted alive ?_) }
    have many := not_lt.mp fun few => released ⟨marked, few⟩
    exact cfg.maxUncommitted_pos.trans_le many

theorem owned_completedBy (watermark : node.completedBy node.assignments = some record) : node.Owned record := by
  obtain ⟨worker, present, last⟩ := bind_eq_some_iff.mp watermark
  exact ⟨worker, present, accounted.watermark _ worker present record last⟩

end Accounted

end PartitionNode

end Cordis.Kafka
