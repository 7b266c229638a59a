import Cordis.Kafka.WorkerOrder

/-! # An assigned partition is never left behind

An assigned worker that has work can always take a step that brings it nearer to the end of it, and
at the end the overflow list is empty and fetching waits for no worker. With the order of the
records this is what a run of the partition consumer keeps.
-/

namespace Cordis.Kafka

open Pool Worker List

/-- The worker whose step the event is. -/
def PartitionEvent.actor : PartitionEvent → Option ℕ
  | .receive worker | .exit worker | .handled worker _ | .pause worker | .retried worker _
  | .retryCancelled worker | .mark worker | .afterProcessed worker => some worker
  | _ => none

/-- The steps to the end of a record, if the handler succeeds. -/
def WorkerPhase.remaining : WorkerPhase → ℕ
  | .receiving | .stopped => 0
  | .marked => 1
  | .completing _ => 2
  | .retrying .. => 3
  | .pausing _ => 4
  | .handling _ => 5

/-- A bound of the steps to the end of the work. -/
def Worker.remaining (worker : Worker) (queuedRecords : List Record) : ℕ :=
  worker.phase.remaining + 6 * (worker.records.length + queuedRecords.length)

namespace PartitionNode

variable {cfg : Config} {log : PartitionLog} {node next : PartitionNode} {id : ℕ} {worker : Worker}

/-- What the invariants say of a node. -/
structure Orderly (node : PartitionNode) (seen : List Observation) : Prop where
  governed : node.runtime.Governed
  sound : node.runtime.Sound
  chronicled : Chronicled node.runtime seen

theorem orderly_start (committed : ℕ) : ({ committed } : PartitionNode).Orderly [] where
  governed := governed_start committed
  sound := ⟨by rintro _ _ ⟨⟩, by rintro _ _ ⟨⟩, absurd rfl, fun _ => ⟨rfl, rfl⟩, all_empty _⟩
  chronicled := ⟨fun _ _ => ⟨rfl, rfl⟩, all_empty _⟩

variable {seen : List Observation}

theorem Orderly.step {event : PartitionEvent} (orderly : node.Orderly seen)
    (step : (partitionMachine cfg log).step node event = some next) :
    next.Orderly (seen ++ (node.observe event).toList) := by
  have effect := effect_step orderly.governed step
  exact ⟨orderly.governed.effect effect, orderly.sound.effect orderly.governed effect,
    orderly.chronicled.effect orderly.sound effect⟩

/-- The worker is written in a step of its own, and the queue stays. -/
theorem mark_eq {record : Record} (alive : node.stopped = false) (assigned : node.worker = some id) :
    (node.mark cfg record).worker = node.worker ∧ (node.mark cfg record).heap = node.heap ∧
      (node.mark cfg record).queuedRecords = node.queuedRecords := by
  unfold PartitionNode.mark
  dsimp only
  split_ifs
  · have same := @runtime_setCommitBackpressure
      { node with
        pendingOffset := laterOffset node.pendingOffset record
        uncommitted := node.uncommitted + 1, backpressured := true } id assigned alive true
    exact ⟨congrArg Runtime.worker same, congrArg Runtime.heap same, congrArg Runtime.queuedRecords same⟩
  · exact ⟨rfl, rfl, rfl⟩

/-- An assigned worker with work can take a step towards its end. -/
theorem exists_step (governed : node.runtime.Governed) (sound : node.runtime.Sound) (assigned : node.worker = some id)
    (present : node.heap id = some worker) (work : worker.HasWork) :
    ∃ event next after, event.actor = some id ∧ (partitionMachine cfg log).step node event = some next ∧
      next.worker = some id ∧ next.heap id = some after ∧
      after.remaining next.queuedRecords < worker.remaining node.queuedRecords := by
  obtain ⟨active, uncancelled, going⟩ := sound.live id worker assigned present
  have alive : node.stopped = false := governed.alive assigned
  have running : node.ctxDone worker = false := by
    have uncancelled' : node.cancelled = false := Bool.eq_false_iff.mpr fun cancelled => by
      cases alive.symm.trans (governed.cancelled cancelled)
    rw [ctxDone, uncancelled, uncancelled']
    rfl
  have returned (record : Record) :
      node.handlerReturned id worker record = node.setWorker id { worker with phase := .completing record } := by
    rw [handlerReturned, if_neg (by rw [running]; decide)]
  cases phase : worker.phase with
  | receiving =>
    have records : worker.records ≠ [] := work.resolve_right fun busy => busy.1 phase
    obtain ⟨record, rest, records⟩ := exists_cons_of_ne_nil records
    refine ⟨.receive id, node.setWorker id { worker with records := rest, phase := .handling record }, _, rfl, ?_,
      assigned, set_self .., ?_⟩
    · simp [partitionMachine, step, stepWorker, present, phase, records]
    · simp only [remaining, phase, records, WorkerPhase.remaining, length_cons, setWorker]
      omega
  | handling record =>
    refine ⟨.handled id .ok, node.setWorker id { worker with phase := .completing record }, _, rfl, ?_, assigned,
      set_self .., ?_⟩
    · simp [partitionMachine, step, stepWorker, present, phase, returned]
    · simp only [remaining, phase, WorkerPhase.remaining, setWorker]
      omega
  | pausing record =>
    have paused : (node.setWorker id { worker with phase := .retrying record 1 }).pause id =
        (node.setWorker id { worker with phase := .retrying record 1 }).pauseLocked .retry :=
      if_neg (not_or.mpr ⟨not_not.mpr assigned, by rw [setWorker, alive]; decide⟩)
    have same := runtime_pauseLocked (node.setWorker id { worker with phase := .retrying record 1 }) .retry
    refine ⟨.pause id, _, { worker with phase := .retrying record 1 }, rfl, ?_, (congrArg Runtime.worker same).trans assigned,
      (congrArg (Runtime.heap · id) same).trans (Pool.set_self ..), ?_⟩
    · simp [partitionMachine, step, stepWorker, present, phase, paused]
    · rw [show PartitionNode.queuedRecords _ = node.queuedRecords from congrArg Runtime.queuedRecords same]
      simp only [remaining, phase, WorkerPhase.remaining]
      omega
  | retrying record attempt =>
    refine ⟨.retried id .ok, node.setWorker id { worker with phase := .completing record }, _, rfl, ?_, assigned,
      set_self .., ?_⟩
    · simp [partitionMachine, step, stepWorker, present, phase, retryRecord, returned]
    · simp only [remaining, phase, WorkerPhase.remaining, setWorker]
      omega
  | completing record =>
    have marked : node.markCompleted cfg id worker record = { node.setWorker id { worker with
        phase := .marked, lastCompleted := some record, finished := worker.finished ++ [record] } with
        completed := record :: node.completed }.mark cfg record := if_pos active
    obtain ⟨same, heap, queue⟩ := @mark_eq cfg { node.setWorker id { worker with
        phase := .marked, lastCompleted := some record, finished := worker.finished ++ [record] } with
        completed := record :: node.completed } id record alive assigned
    refine ⟨.mark id, _, { worker with
        phase := .marked, lastCompleted := some record, finished := worker.finished ++ [record] }, rfl, ?_,
      same.trans assigned, (congrFun heap id).trans (set_self ..), ?_⟩
    · simp [partitionMachine, step, stepWorker, present, phase, marked]
    · rw [queue]
      simp only [remaining, phase, WorkerPhase.remaining, setWorker]
      omega
  | marked =>
    have same := @runtime_afterProcessed cfg node id worker
      (not_or.mpr ⟨not_not.mpr assigned, by rw [alive]; decide⟩)
    obtain ⟨heap, kept, queue⟩ := Runtime.refill_eq cfg node.runtime id worker
    rw [← same] at heap kept queue
    refine ⟨.afterProcessed id, node.afterProcessed cfg id worker, _, rfl, ?_, kept.trans assigned,
      (congrFun heap id).trans (set_self ..), ?_⟩
    · simp [partitionMachine, step, stepWorker, present, phase]
    · rw [show (node.afterProcessed cfg id worker).queuedRecords = _ from queue]
      simp only [remaining, phase, WorkerPhase.remaining, runtime, length_append, length_take,
        length_drop]
      omega
  | stopped => exact absurd phase going

/-- The assigned worker alone can finish all its work. -/
theorem exists_drained (orderly : node.Orderly seen) (assigned : node.worker = some id)
    (present : node.heap id = some worker) :
    ∃ events final after, (∀ event ∈ events, event.actor = some id) ∧
      (partitionMachine cfg log).run node events = some final ∧
      final.worker = some id ∧ final.heap id = some after ∧ ¬ after.HasWork ∧ ¬ final.runtime.Waits := by
  induction size : worker.remaining node.queuedRecords using Nat.strong_induction_on generalizing node worker seen with
  | _ size ih =>
    subst size
    by_cases work : worker.HasWork
    · obtain ⟨event, next, moved, own, step, still, held, less⟩ :=
        @exists_step cfg log node id worker orderly.governed orderly.sound assigned present work
      obtain ⟨events, final, after, all, run, rest⟩ := ih _ less (orderly.step step) still held rfl
      refine ⟨event :: events, final, after, forall_mem_cons.mpr ⟨own, all⟩, ?_, rest⟩
      exact Machine.run_cons_eq_some.mpr ⟨next, step, run⟩
    · refine ⟨[], node, worker, forall_mem_nil _, rfl, assigned, present, work, fun waits => ?_⟩
      exact work (orderly.sound.working id worker assigned present waits)

end PartitionNode

/-- In every run the handler of each worker sees the records in the order in which they are enqueued,
the next one only after the one before is completed, and again only the last one. For the assigned
worker nothing is lost: an overflow list that is not empty and a reason of the queue or of a retry
come with a record in the channel or in processing, fetching is paused exactly while there is a
reason, and the worker's own steps can finish its work, after which neither reason is left. -/
theorem worker_keeps_order_and_progresses {cfg : Config} {log : PartitionLog} {committed : ℕ}
    {events : List PartitionEvent} {node : PartitionNode}
    (run : (partitionMachine cfg log).run { committed } events = some node) :
    (∀ id, ∃ received,
      received <+: accepted id ((partitionMachine cfg log).trace PartitionNode.observe { committed } events) ∧
      Retried (called id ((partitionMachine cfg log).trace PartitionNode.observe { committed } events)) received ∧
      ∀ worker, node.heap id = some worker →
        worker.finished <+: received ∧ received.length ≤ worker.finished.length + 1) ∧
    ∀ id, node.worker = some id → ∃ worker, node.heap id = some worker ∧
      accepted id ((partitionMachine cfg log).trace PartitionNode.observe { committed } events) =
        worker.finished ++ (worker.phase.record.toList ++ (worker.records ++ node.queuedRecords)) ∧
      (node.queuedRecords ≠ [] → worker.records ≠ [] ∨ worker.phase.Busy) ∧
      (.queue ∈ node.pauseReasons ∨ .retry ∈ node.pauseReasons → worker.records ≠ [] ∨ worker.phase.Busy) ∧
      (node.fetchPaused = true ↔ node.pauseReasons ≠ ∅) ∧
      ∃ rest final after, (∀ event ∈ rest, event.actor = some id) ∧
        (partitionMachine cfg log).run node rest = some final ∧
        final.worker = some id ∧ final.heap id = some after ∧ after.records = [] ∧ final.queuedRecords = [] ∧
        .queue ∉ final.pauseReasons ∧ .retry ∉ final.pauseReasons := by
  have orderly := Machine.invariant_trace (fun _ _ _ _ orderly step => orderly.step step) run
    (PartitionNode.orderly_start committed)
  rw [List.nil_append] at orderly
  generalize (partitionMachine cfg log).trace PartitionNode.observe { committed } events = seen at orderly ⊢
  refine ⟨fun id => ?_, fun id assigned => ?_⟩
  · rcases Option.eq_none_or_eq_some (node.heap id) with absent | ⟨worker, present⟩
    · obtain ⟨none, uncalled⟩ := orderly.chronicled.unknown id absent
      refine ⟨[], List.nil_prefix, uncalled ▸ .none, fun worker held => ?_⟩
      cases absent.symm.trans held
    · obtain ⟨received, behind, chronicle, _⟩ := orderly.chronicled.known id worker present
      refine ⟨received, ⟨_, chronicle.accepts.symm⟩, chronicle.calls, fun found held => ?_⟩
      cases present.symm.trans held
      exact ⟨chronicle.completed, chronicle.lag⟩
  · obtain ⟨worker, present⟩ := orderly.governed.present id assigned
    obtain ⟨received, behind, chronicle, queued⟩ := orderly.chronicled.known id worker present
    have working := orderly.sound.working id worker assigned present
    refine ⟨worker, present, ?_, fun queue => working (.inl queue), fun reasons => working (.inr reasons), ?_, ?_⟩
    · rw [chronicle.accepts, queued assigned, chronicle.current (orderly.sound.live id worker assigned present).2.2,
        List.append_assoc]
      rfl
    · exact orderly.sound.paused fun unassigned => by cases assigned.symm.trans unassigned
    · obtain ⟨rest, final, after, own, drained, still, held, idle, unwaited⟩ :=
        @PartitionNode.exists_drained cfg log node id worker seen orderly assigned present
      simp only [Runtime.Waits, not_or, not_not] at unwaited
      refine ⟨rest, final, after, own, drained, still, held, ?_, unwaited⟩
      by_contra some
      exact idle (.inl some)

/-- With room for one record the second waits in the channel and the third overflows, while the handler
is called with the first record again. -/
theorem overflow_behind_retry :
    ∃ node worker, (partitionMachine { queueSize := 1 } ⟨[⟨0, 1⟩, ⟨1, 1⟩, ⟨2, 1⟩], by decide⟩).run {}
        [.assign, .poll 3, .enqueue, .receive 1, .enqueue, .enqueue, .handled 1 .retryable, .pause 1,
          .retried 1 .retryable] = some node ∧
      node.heap 1 = some worker ∧ node.queuedRecords = [⟨2, 1⟩] ∧ node.pauseReasons = {.queue, .retry} ∧
      (worker.records ≠ [] ∨ worker.phase.Busy) ∧
      called 1 ((partitionMachine { queueSize := 1 } ⟨[⟨0, 1⟩, ⟨1, 1⟩, ⟨2, 1⟩], by decide⟩).trace
        PartitionNode.observe {}
        [.assign, .poll 3, .enqueue, .receive 1, .enqueue, .enqueue, .handled 1 .retryable, .pause 1,
          .retried 1 .retryable]) = [⟨0, 1⟩, ⟨0, 1⟩] := by
  obtain ⟨_, kept⟩ := @worker_keeps_order_and_progresses { queueSize := 1 }
    ⟨[⟨0, 1⟩, ⟨1, 1⟩, ⟨2, 1⟩], by decide⟩ 0
    [.assign, .poll 3, .enqueue, .receive 1, .enqueue, .enqueue, .handled 1 .retryable, .pause 1,
      .retried 1 .retryable] _ rfl
  obtain ⟨worker, present, _, work, _⟩ := kept 1 rfl
  exact ⟨_, worker, rfl, present, rfl, by decide, work (by decide), by decide⟩

end Cordis.Kafka
