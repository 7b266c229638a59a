import Cordis.Kafka.Ownership

/-! # The records of a session in order

The records of one fetch session reach the assigned worker in the order of the log, with no gap: what
the worker has completed, what it works on, its channel, the overflow list, the batch being enqueued
and the rest of the session together are the log from the offset the session started at. So the
completed records of a worker are an initial part of its session, and an offset that one of them
carries may be committed. This module states the order and shows that the workers keep it, and what
is accounted for them.
-/

namespace Cordis.Kafka

open Worker List Option

namespace PartitionLog

/-- The records of a session that starts at the offset. -/
def since (log : PartitionLog) (base : ℕ) : List Record :=
  log.records.filter fun record => decide (base ≤ record.offset)

variable {log : PartitionLog} {base : ℕ} {record : Record}

theorem mem_since : record ∈ log.since base ↔ record ∈ log.records ∧ base ≤ record.offset := by
  simp [since]

/-- An initial part of a session holds every record up to each of its own. -/
theorem mem_of_isPrefix {completed : List Record} (initial : completed <+: log.since base)
    {last : Record} (member : last ∈ completed) (known : record ∈ log.since base)
    (upTo : record.offset ≤ last.offset) : record ∈ completed := by
  obtain ⟨rest, split⟩ := initial
  rw [← split] at known
  rcases mem_append.mp known with inside | later
  · exact inside
  · have sorted : (completed ++ rest).Pairwise fun earlier later => earlier.offset < later.offset := by
      rw [split]
      exact (log.increasing.imp And.left).filter _
    have ordered := (pairwise_append.mp sorted).2.2 last member record later
    omega

end PartitionLog

/-- The record a worker holds between its channel and its watermark. -/
def WorkerPhase.record : WorkerPhase → Option Record
  | .handling record | .pausing record | .retrying record _ | .completing record => some record
  | .receiving | .marked | .stopped => none

namespace Worker

/-- What a worker has completed and may still complete, in order. -/
def line (worker : Worker) : List Record :=
  if worker.phase = .stopped then worker.finished
  else worker.finished ++ (worker.phase.record.toList ++ worker.records)

/-- Nobody has started to stop the worker. -/
def Live (worker : Worker) : Prop :=
  worker.active = true ∧ worker.cancelled = false ∧ worker.phase ≠ .stopped

theorem finished_isPrefix_line (worker : Worker) : worker.finished <+: worker.line := by
  unfold line
  split
  · exact prefix_rfl
  · exact prefix_append ..

variable {worker : Worker}

theorem line_of_ne (going : worker.phase ≠ .stopped) :
    worker.line = worker.finished ++ (worker.phase.record.toList ++ worker.records) :=
  if_neg going

theorem line_push (going : worker.phase ≠ .stopped) (record : Record) :
    ({ worker with records := worker.records ++ [record] } : Worker).line = worker.line ++ [record] := by
  simp [line, if_neg going]

end Worker

namespace PartitionNode

variable {cfg : Config} {log : PartitionLog} {node next : PartitionNode} {record : Record}

theorem enqueue_of_none (node : PartitionNode) (unassigned : node.worker = none) :
    node.enqueue cfg record = node := by
  simp only [enqueue, unassigned]

theorem enqueue_of_some (node : PartitionNode) {id : ℕ} {worker : Worker}
    (assigned : node.worker = some id) (present : node.heap id = some worker)
    (alive : node.stopped = false) :
    node.enqueue cfg record =
      if node.queuedRecords ≠ [] then
        { node with queuedRecords := node.queuedRecords ++ [record] }.pauseLocked .queue
      else if worker.records.length < cfg.channelSize then
        node.setWorker id { worker with records := worker.records ++ [record] }
      else { node with queuedRecords := [record] }.pauseLocked .queue := by
  simp [enqueue, assigned, present, alive]

/-- The batch in the poll loop, if it is from the current session. -/
def ownPolled (node : PartitionNode) : List Record :=
  if node.polledFrom = node.assignments then node.polled else []

/-- What is known of every worker there ever was. -/
structure Recorded (log : PartitionLog) (completed : List Record) (worker : Worker) : Prop where
  initial : worker.line <+: log.since worker.base
  completed : ∀ record ∈ worker.finished, record ∈ completed

/-- The session of the assigned worker is complete and in order. -/
def Serving (log : PartitionLog) (node : PartitionNode) (id : ℕ) : Prop :=
  ∃ worker, node.heap id = some worker ∧ worker.Live ∧
    worker.line ++ (node.queuedRecords ++ (node.ownPolled ++ node.unfetched)) = log.since worker.base

structure InOrder (log : PartitionLog) (node : PartitionNode) : Prop where
  recorded : node.heap.All fun _ worker => Recorded log node.completed worker
  serving : ∀ id, node.worker = some id → node.Serving log id
  unqueued : node.worker = none → node.queuedRecords = []
  polledFrom : node.polledFrom ≤ node.assignments
  base : ∀ worker, node.heap node.assignments = some worker → worker.base ≤ node.committed

variable (log node next)

/-- The offset may be committed: nothing between the committed offset and it is still to be done. -/
def CommitSafe (record : Record) : Prop :=
  ∀ earlier ∈ log.records, node.committed ≤ earlier.offset → earlier.offset ≤ record.offset →
    earlier ∈ node.completed

/-- The next state is accounted for, and in order if this one is. -/
def Keeps : Prop :=
  next.Accounted ∧ (node.InOrder log → next.InOrder log)

variable {log node next}

variable {record : Record} {id : ℕ} {worker : Worker}

theorem Keeps.pauseLocked (kept : node.Keeps log next) (assigned : next.worker = some id) {reason : PauseReason}
    (other : reason ≠ .commit) : node.Keeps log (next.pauseLocked reason) := by
  rw [pauseLocked_eq]
  exact ⟨kept.1.setPause assigned (by simp [other.symm]), fun order => { kept.2 order with }⟩

namespace InOrder

variable (order : node.InOrder log)

include order

theorem commitSafe (owned : node.Owned record) : node.CommitSafe log record := by
  obtain ⟨worker, present, finished⟩ := owned
  have recorded := order.recorded _ worker present
  intro earlier member above upTo
  have known : earlier ∈ log.since worker.base :=
    PartitionLog.mem_since.mpr ⟨member, (order.base worker present).trans above⟩
  exact recorded.completed earlier (PartitionLog.mem_of_isPrefix
    (worker.finished_isPrefix_line.trans recorded.initial) finished known upTo)

theorem base_set {old new : Worker} (present : node.heap id = some old) (base : new.base = old.base) (worker : Worker)
    (held : node.heap.set id new node.assignments = some worker) : worker.base ≤ node.committed := by
  rcases Pool.of_set held with ⟨rfl, rfl⟩ | ⟨_, held⟩
  · rw [base]
    exact order.base old present
  · exact order.base worker held

/-- A worker moves on without completing anything. -/
theorem setWorker {old new : Worker} (present : node.heap id = some old) (base : new.base = old.base)
    (finished : new.finished = old.finished) (line : new.line <+: old.line)
    (serving : node.worker = some id → old.Live → new.Live ∧ new.line = old.line) :
    (node.setWorker id new).InOrder log := by
  have recorded := order.recorded id old present
  refine { order with recorded := ?_, serving := ?_, base := order.base_set present base }
  · refine order.recorded.set ⟨?_, ?_⟩
    · rw [base]
      exact line.trans recorded.initial
    · rw [finished]
      exact recorded.completed
  · intro current assigned
    refine Pool.exists_set present ?_ (order.serving current assigned)
    rintro rfl ⟨live, session⟩
    obtain ⟨live, same⟩ := serving assigned live
    refine ⟨live, ?_⟩
    rw [same, base]
    exact session

/-- Records move along the session of the assigned worker. -/
theorem advance {phase : WorkerPhase} {records queuedRecords polled : List Record}
    (assigned : node.worker = some id) (present : node.heap id = some worker) (goes : phase ≠ .stopped)
    (total : ({ worker with phase, records } : Worker).line ++ (queuedRecords ++
        (({ node with polled } : PartitionNode).ownPolled ++ node.unfetched)) =
      worker.line ++ (node.queuedRecords ++ (node.ownPolled ++ node.unfetched))) :
    ({ node with queuedRecords, polled }.setWorker id { worker with phase, records }).InOrder log := by
  have recorded := order.recorded id worker present
  obtain ⟨held, found, live, session⟩ := order.serving id assigned
  cases present.symm.trans found
  have whole := total.trans session
  refine { order with recorded := ?_, serving := ?_, unqueued := ?_, base := order.base_set present rfl }
  · exact order.recorded.set { recorded with initial := ⟨_, whole⟩ }
  · intro current assignedNow
    cases assigned.symm.trans assignedNow
    exact ⟨_, Pool.set_self .., ⟨live.1, live.2.1, goes⟩, whole⟩
  · intro unassigned
    cases assigned.symm.trans unassigned

/-- The record that a worker completes comes next in its session. -/
theorem markCompleted (present : node.heap id = some worker) (completing : worker.phase = .completing record) :
    ({ node.setWorker id { worker with
        phase := .marked, lastCompleted := some record, finished := worker.finished ++ [record] } with
      completed := record :: node.completed } : PartitionNode).InOrder log := by
  have recorded := order.recorded id worker present
  have line : ({ worker with
      phase := .marked, lastCompleted := some record, finished := worker.finished ++ [record] } :
        Worker).line = worker.line := by
    simp [line, completing, WorkerPhase.record]
  refine { order with recorded := ?_, serving := ?_, base := order.base_set present rfl }
  · refine Pool.All.set (order.recorded.mono fun _ _ _ known => ?_) ⟨line ▸ recorded.initial, fun other member => ?_⟩
    · exact { known with completed := fun other member => mem_cons_of_mem _ (known.completed other member) }
    · rcases mem_append.mp member with before | now
      · exact mem_cons_of_mem _ (recorded.completed other before)
      · exact mem_singleton.mp now ▸ mem_cons_self
  · intro current assigned
    refine Pool.exists_set present (fun _ => ?_) (order.serving current assigned)
    rintro ⟨live, session⟩
    exact ⟨⟨live.1, live.2.1, by rintro ⟨⟩⟩, line ▸ session⟩

theorem setCommitBackpressure (blocked : Bool) : (node.setCommitBackpressure blocked).InOrder log := by
  unfold PartitionNode.setCommitBackpressure
  split_ifs
  · exact order
  · rw [pauseLocked_eq]
    exact { order with }
  · rw [resumeLocked_eq]
    exact { order with }

theorem mark (record : Record) : (node.mark cfg record).InOrder log := by
  unfold PartitionNode.mark
  dsimp only
  split_ifs
  · apply InOrder.setCommitBackpressure
    exact { order with }
  · exact { order with }

end InOrder

namespace Accounted

variable (accounted : node.Accounted)

include accounted

/-- A worker moves on with the record it holds. -/
theorem setPhase {phase : WorkerPhase} (present : node.heap id = some worker)
    (going : worker.phase ≠ .stopped) (goes : phase ≠ .stopped) (same : phase.record = worker.phase.record) :
    node.Keeps log (node.setWorker id { worker with phase }) := by
  have line : ({ worker with phase } : Worker).line = worker.line := by
    rw [line_of_ne going, line_of_ne goes, same]
  refine ⟨accounted.moveWorker present fun active => active, fun order => ?_⟩
  exact order.setWorker present rfl rfl ⟨[], by rw [append_nil, line]⟩
    fun _ live => ⟨⟨live.1, live.2.1, goes⟩, line⟩

/-- A worker that has been told to stop ends without completing its record. -/
theorem stopWorker (present : node.heap id = some worker)
    (told : node.ctxDone worker = true ∨ worker.active = false) :
    node.Keeps log (node.setWorker id { worker with phase := .stopped }) := by
  refine ⟨accounted.moveWorker present fun active => active, fun order => ?_⟩
  refine order.setWorker present rfl rfl worker.finished_isPrefix_line fun assigned live => ?_
  have alive := (accounted.assigned id assigned).2.2
  rcases told with done | inactive
  · have running : node.cancelled = false :=
      Bool.eq_false_iff.mpr fun cancelled => by cases alive.symm.trans (accounted.cancelled cancelled)
    rw [ctxDone, live.2.1, running] at done
    cases done
  · cases live.1.symm.trans inactive

theorem handlerReturned (present : node.heap id = some worker)
    (going : worker.phase ≠ .stopped) (holds : worker.phase.record = some record) :
    node.Keeps log (node.handlerReturned id worker record) := by
  unfold PartitionNode.handlerReturned
  split_ifs with done
  · exact accounted.stopWorker present (.inl done)
  · exact accounted.setPhase present going (by rintro ⟨⟩) holds.symm

theorem afterProcessed (present : node.heap id = some worker)
    (marked : worker.phase = .marked) : node.Keeps log (node.afterProcessed cfg id worker) := by
  unfold PartitionNode.afterProcessed
  have going : worker.phase ≠ .stopped := by
    rw [marked]
    rintro ⟨⟩
  split_ifs with elsewhere
  · exact accounted.setPhase present going (by rintro ⟨⟩) (by rw [marked]; rfl)
  · have assigned : node.worker = some id := not_not.mp (not_or.mp elsewhere).1
    let room := cfg.channelSize - worker.records.length
    have refilled : node.Keeps log ({ node with queuedRecords := node.queuedRecords.drop room }.setWorker id
        { worker with records := worker.records ++ node.queuedRecords.take room, phase := .receiving }) := by
      refine ⟨{ accounted.moveWorker present fun active => active with }, fun order => ?_⟩
      refine order.advance assigned present (by rintro ⟨⟩) ?_
      rw [line_of_ne (by rintro ⟨⟩), line_of_ne going, marked]
      simp only [WorkerPhase.record, toList_none, nil_append, append_assoc]
      rw [← append_assoc (node.queuedRecords.take _), take_append_drop]
    dsimp only
    split_ifs
    · rw [resumeLocked_eq]
      exact ⟨refilled.1.setPause assigned (by simp [PartitionNode.setWorker]), fun order => { refilled.2 order with }⟩
    · exact refilled

theorem stepWorker {event : PartitionEvent} (step : node.stepWorker cfg event = some next) : node.Keeps log next := by
  cases event with
  | receive id =>
    obtain ⟨worker, present, step⟩ := bind_eq_some_iff.mp step
    split at step <;> cases step
    next record rest phase records =>
      have line : ({ worker with records := rest, phase := .handling record } : Worker).line = worker.line := by
        simp [line, phase, records, WorkerPhase.record]
      refine ⟨accounted.moveWorker present fun active => active, fun order => ?_⟩
      exact order.setWorker present rfl rfl ⟨[], by rw [append_nil, line]⟩
        fun _ live => ⟨⟨live.1, live.2.1, by rintro ⟨⟩⟩, line⟩
  | exit id =>
    obtain ⟨worker, present, step⟩ := bind_eq_some_iff.mp step
    split_ifs at step with told
    cases step
    exact accounted.stopWorker present (.inl told.2)
  | handled id outcome | retried id outcome =>
    obtain ⟨worker, present, step⟩ := bind_eq_some_iff.mp step
    split at step
    · next phase =>
      have going : worker.phase ≠ .stopped := by rw [phase]; rintro ⟨⟩
      split at step <;> cases step
      · exact accounted.setPhase present going (by rintro ⟨⟩) (by rw [phase]; rfl)
      · exact accounted.handlerReturned present going (by rw [phase]; rfl)
    · cases step
  | pause id =>
    obtain ⟨worker, present, step⟩ := bind_eq_some_iff.mp step
    split at step <;> cases step
    next record phase =>
      have going : worker.phase ≠ .stopped := by rw [phase]; rintro ⟨⟩
      have retrying : node.Keeps log (node.setWorker id { worker with phase := .retrying record 1 }) :=
        accounted.setPhase present going (by rintro ⟨⟩) (by rw [phase]; rfl)
      unfold PartitionNode.pause
      split_ifs with removed
      · exact retrying
      · exact retrying.pauseLocked (not_not.mp (not_or.mp removed).1) (by rintro ⟨⟩)
  | retryCancelled id =>
    obtain ⟨worker, present, step⟩ := bind_eq_some_iff.mp step
    split at step
    · split_ifs at step with told
      cases step
      exact accounted.stopWorker present (.inl told)
    · cases step
  | mark id =>
    obtain ⟨worker, present, step⟩ := bind_eq_some_iff.mp step
    split at step <;> cases step
    next record phase =>
      unfold PartitionNode.markCompleted
      split_ifs with active
      · exact ⟨accounted.markCompleted present _ _ active, fun order => (order.markCompleted present phase).mark _⟩
      · exact accounted.stopWorker present (.inr (Bool.eq_false_iff.mpr active))
  | afterProcessed id =>
    obtain ⟨worker, present, step⟩ := bind_eq_some_iff.mp step
    split_ifs at step with marked
    cases step
    exact accounted.afterProcessed present marked
  | _ => cases step

end Accounted

end PartitionNode

end Cordis.Kafka
