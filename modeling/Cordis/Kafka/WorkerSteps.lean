import Cordis.Kafka.Tracking

/-! # What a step does to the workers

The runtime's maps and the workers are written under a handful of locks, by the poll loop, the
workers, the committer and the two ways a worker is stopped. `Effect` lists what a step does to them,
with the facts it was found with, and leaves out the offsets and the broker. `Governed` says who may
stop a worker: a revocation and the shutdown take it out of the map before they cancel it.
-/

namespace Cordis.Kafka

open PartitionNode Option Bool

/-- What an observer of the workers sees: a record that is handed to a worker, and a handler call. -/
inductive Observation where
  | accepted (worker : ℕ) (record : Record)
  | called (worker : ℕ) (record : Record)
deriving DecidableEq, Repr

/-- The part of a node that the workers and their queues are. -/
structure Runtime where
  heap : Pool ℕ Worker
  worker : Option ℕ
  queuedRecords : List Record
  pauseReasons : Finset PauseReason
  fetchPaused : Bool
  /-- A revocation is under way. -/
  revoking : Bool
  /-- The shutdown has begun. -/
  stopping : Bool
  stopped : Bool
  cancelled : Bool
  assignments : ℕ

namespace Runtime

variable (cfg : Config) (runtime : Runtime)

def setWorker (id : ℕ) (worker : Worker) : Runtime := { runtime with heap := runtime.heap.set id worker }

/-- Fetching pauses with the first reason. -/
def pause (reason : PauseReason) : Runtime :=
  { runtime with
    pauseReasons := insert reason runtime.pauseReasons
    fetchPaused := runtime.fetchPaused || decide (runtime.pauseReasons = ∅) }

/-- Fetching resumes when the last reason goes. -/
def resume (reasons : Finset PauseReason) : Runtime :=
  { runtime with
    pauseReasons := runtime.pauseReasons \ reasons
    fetchPaused := runtime.fetchPaused &&
      decide (runtime.pauseReasons ∩ reasons = ∅ ∨ runtime.pauseReasons \ reasons ≠ ∅) }

/-- The overflow list fills the channel up, and fetching resumes when nothing is left to do. -/
def refill (id : ℕ) (worker : Worker) : Runtime :=
  let room := cfg.channelSize - worker.records.length
  let records := worker.records ++ runtime.queuedRecords.take room
  let refilled := { runtime with queuedRecords := runtime.queuedRecords.drop room }.setWorker id
    { worker with records, phase := .receiving }
  if refilled.queuedRecords = [] ∧ records = [] then refilled.resume {.queue, .retry} else refilled

/-- The worker's context is done or it may complete nothing any more. -/
def Told (worker : Worker) : Prop :=
  worker.active = false ∨ worker.cancelled = true ∨ runtime.cancelled = true

/-- A revocation and the shutdown take the worker out of the map before they stop it. -/
structure Governed : Prop where
  revoking : runtime.revoking = true → runtime.worker = none
  stopping : runtime.stopping = true → runtime.stopped = true
  cancelled : runtime.cancelled = true → runtime.stopped = true
  stopped : runtime.stopped = true → runtime.worker = none
  present : ∀ id, runtime.worker = some id → ∃ worker, runtime.heap id = some worker

/-- A worker that holds a record may call the handler with it again. -/
def Recalls (id : ℕ) (worker : Worker) (seen : Option Observation) : Prop :=
  seen = none ∨ ∃ record, worker.phase.record = some record ∧ seen = some (.called id record)

inductive Effect : Option Observation → Runtime → Prop
  | quiet : Effect none runtime
  | assign {base} (unassigned : runtime.worker = none) (free : runtime.revoking = false)
      (alive : runtime.stopped = false) :
      Effect none { runtime with
        heap := runtime.heap.set (runtime.assignments + 1) { base }
        worker := some (runtime.assignments + 1)
        fetchPaused := false
        assignments := runtime.assignments + 1 }
  | push {id worker record} (assigned : runtime.worker = some id) (present : runtime.heap id = some worker)
      (empty : runtime.queuedRecords = []) :
      Effect (some (.accepted id record))
        (runtime.setWorker id { worker with records := worker.records ++ [record] })
  | overflow {id worker record} (assigned : runtime.worker = some id) (present : runtime.heap id = some worker)
      (full : runtime.queuedRecords = [] → cfg.channelSize ≤ worker.records.length) :
      Effect (some (.accepted id record))
        ({ runtime with queuedRecords := runtime.queuedRecords ++ [record] }.pause .queue)
  | receive {id worker record rest} (present : runtime.heap id = some worker) (phase : worker.phase = .receiving)
      (records : worker.records = record :: rest) :
      Effect (some (.called id record))
        (runtime.setWorker id { worker with records := rest, phase := .handling record })
  | advance {id worker phase seen} (present : runtime.heap id = some worker) (busy : worker.phase.record ≠ none)
      (same : phase.record = worker.phase.record) (recalls : Recalls id worker seen) :
      Effect seen (runtime.setWorker id { worker with phase })
  | retry {id worker record} (assigned : runtime.worker = some id) (present : runtime.heap id = some worker)
      (phase : worker.phase = .pausing record) :
      Effect none ((runtime.setWorker id { worker with phase := .retrying record 1 }).pause .retry)
  | quit {id worker seen} (present : runtime.heap id = some worker) (told : runtime.Told worker)
      (recalls : Recalls id worker seen) :
      Effect seen (runtime.setWorker id { worker with phase := .stopped })
  | mark {id worker record} (present : runtime.heap id = some worker) (phase : worker.phase = .completing record) :
      Effect none (runtime.setWorker id { worker with
        phase := .marked, lastCompleted := some record, finished := worker.finished ++ [record] })
  | markBlocked {id worker record other} (assigned : runtime.worker = some other)
      (present : runtime.heap id = some worker) (phase : worker.phase = .completing record) :
      Effect none ((runtime.setWorker id { worker with
        phase := .marked, lastCompleted := some record, finished := worker.finished ++ [record] }).pause .commit)
  | acknowledge {id} (assigned : runtime.worker = some id) : Effect none (runtime.resume {.commit})
  | leave {id worker} (present : runtime.heap id = some worker) (phase : worker.phase = .marked)
      (removed : runtime.worker ≠ some id) :
      Effect none (runtime.setWorker id { worker with phase := .receiving })
  | refill {id worker} (assigned : runtime.worker = some id) (present : runtime.heap id = some worker)
      (phase : worker.phase = .marked) : Effect none (runtime.refill cfg id worker)
  | revoke :
      Effect none { runtime with worker := none, queuedRecords := [], pauseReasons := ∅, revoking := true }
  | revoking (unassigned : runtime.worker = none) : Effect none { runtime with revoking := true }
  | revoked : Effect none { runtime with revoking := false }
  | stop :
      Effect none { runtime with
        worker := none, queuedRecords := [], pauseReasons := ∅, stopping := true, stopped := true }
  | cancel (stopping : runtime.stopping = true) : Effect none { runtime with cancelled := true }
  | disturb {id worker cancelled active} (removed : runtime.revoking = true ∨ runtime.stopping = true)
      (present : runtime.heap id = some worker) :
      Effect none (runtime.setWorker id { worker with cancelled, active })

variable {cfg runtime}

variable (governed : runtime.Governed)

include governed

theorem Governed.alive {id : ℕ} (assigned : runtime.worker = some id) : runtime.stopped = false := by
  refine eq_false_iff.mpr fun stopped => ?_
  cases assigned.symm.trans (governed.stopped stopped)

theorem Governed.unassigned (removed : runtime.revoking = true ∨ runtime.stopping = true) : runtime.worker = none :=
  removed.elim governed.revoking fun stopping => governed.stopped (governed.stopping stopping)

theorem Governed.setWorker (id : ℕ) (worker : Worker) : (runtime.setWorker id worker).Governed := by
  refine { governed with present := fun current assigned => ?_ }
  by_cases same : current = id
  · exact ⟨worker, same ▸ Pool.set_self ..⟩
  · obtain ⟨found, present⟩ := governed.present current assigned
    exact ⟨found, (Pool.set_of_ne _ same _).trans present⟩

theorem Governed.effect {seen : Option Observation} {after : Runtime} (effect : runtime.Effect cfg seen after) :
    after.Governed := by
  cases effect with
  | quiet => exact governed
  | assign unassigned free alive =>
    refine { governed with revoking := ?_, stopped := ?_, present := ?_ }
    · intro revoking
      cases free.symm.trans revoking
    · intro stopped
      cases alive.symm.trans stopped
    · rintro id ⟨⟩
      exact ⟨_, Pool.set_self ..⟩
  | overflow | acknowledge => exact { governed with }
  | push | receive | advance | quit | mark | leave | disturb => exact governed.setWorker ..
  | retry | markBlocked => exact { governed.setWorker _ _ with }
  | refill =>
    unfold refill
    dsimp only
    split_ifs
    · exact { governed.setWorker _ _ with }
    · exact { governed.setWorker _ _ with }
  | revoke => exact { governed with revoking := fun _ => rfl, stopped := fun _ => rfl, present := by rintro _ ⟨⟩ }
  | revoking unassigned => exact { governed with revoking := fun _ => unassigned }
  | revoked => exact { governed with revoking := by rintro ⟨⟩ }
  | stop =>
    exact ⟨fun _ => rfl, fun _ => rfl, fun _ => rfl, fun _ => rfl, by rintro _ ⟨⟩⟩
  | cancel stopping => exact { governed with cancelled := fun _ => governed.stopping stopping }

end Runtime

namespace PartitionNode

def runtime (node : PartitionNode) : Runtime where
  heap := node.heap
  worker := node.worker
  queuedRecords := node.queuedRecords
  pauseReasons := node.pauseReasons
  fetchPaused := node.fetchPaused
  revoking := decide (node.revoke ≠ .idle)
  stopping := decide (node.shutdown ≠ .running)
  stopped := node.stopped
  cancelled := node.cancelled
  assignments := node.assignments

/-- A record that is enqueued while a worker is assigned, the first call of the handler with a record
that the worker has received, and each further call with it. -/
def observe (node : PartitionNode) : PartitionEvent → Option Observation
  | .enqueue =>
      match node.polled, node.worker with
      | record :: _, some id => some (.accepted id record)
      | _, _ => none
  | .receive id => (node.heap id).bind fun worker => worker.records.head?.map (.called id)
  | .retried id _ => (node.heap id).bind fun worker => worker.phase.record.map (.called id)
  | _ => none

variable {cfg : Config} {log : PartitionLog} {node next : PartitionNode} {event : PartitionEvent}
variable {id : ℕ} {worker : Worker} {record : Record}

theorem runtime_pauseLocked (node : PartitionNode) (reason : PauseReason) :
    (node.pauseLocked reason).runtime = node.runtime.pause reason := by
  rw [pauseLocked_eq]
  rfl

theorem runtime_resumeLocked (node : PartitionNode) (reasons : Finset PauseReason) :
    (node.resumeLocked reasons).runtime = node.runtime.resume reasons := by
  rw [resumeLocked_eq]
  rfl

theorem runtime_setCommitBackpressure (assigned : node.worker = some id) (alive : node.stopped = false)
    (blocked : Bool) :
    (node.setCommitBackpressure blocked).runtime =
      if blocked then node.runtime.pause .commit else node.runtime.resume {.commit} := by
  rw [setCommitBackpressure_of_some assigned alive]
  cases blocked with
  | true => exact runtime_pauseLocked node _
  | false => exact runtime_resumeLocked node _

theorem runtime_afterProcessed (worker : Worker) (kept : ¬ (node.worker ≠ some id ∨ node.stopped = true)) :
    (node.afterProcessed cfg id worker).runtime = node.runtime.refill cfg id worker := by
  unfold afterProcessed
  dsimp only
  split_ifs with finished
  · rw [runtime_resumeLocked]
    exact (if_pos finished).symm
  · exact (if_neg finished).symm

theorem runtime_commitRecords (node : PartitionNode) (record : Record) (result : CommitResult) :
    (node.commitRecords record result).runtime = node.runtime := by
  unfold commitRecords
  split <;> rfl

variable {seen : Option Observation}

theorem effect_handlerReturned (present : node.heap id = some worker) (holds : worker.phase.record = some record)
    (recalls : Runtime.Recalls id worker seen) :
    node.runtime.Effect cfg seen (node.handlerReturned id worker record).runtime := by
  unfold handlerReturned
  split_ifs with told
  · rw [ctxDone, or_eq_true] at told
    exact .quit present (.inr told) recalls
  · exact .advance present (by rw [holds]; rintro ⟨⟩) holds.symm recalls

/-- A revocation that goes on is still under way. -/
theorem effect_setRevoke (middle : PartitionNode) {revoke : Revoke}
    (current : middle.revoke ≠ .idle) (goes : revoke ≠ .idle) (effect : node.runtime.Effect cfg seen middle.runtime) :
    node.runtime.Effect cfg seen ({ middle with revoke } : PartitionNode).runtime := by
  have same : ({ middle with revoke } : PartitionNode).runtime = middle.runtime := by simp [runtime, current, goes]
  rw [same]
  exact effect

theorem effect_setShutdown (middle : PartitionNode) {shutdown : Shutdown}
    (current : middle.shutdown ≠ .running) (goes : shutdown ≠ .running)
    (effect : node.runtime.Effect cfg seen middle.runtime) :
    node.runtime.Effect cfg seen ({ middle with shutdown } : PartitionNode).runtime := by
  have same : ({ middle with shutdown } : PartitionNode).runtime = middle.runtime := by simp [runtime, current, goes]
  rw [same]
  exact effect

theorem effect_stepRevoke (step : node.stepRevoke event = some next) :
    node.runtime.Effect cfg (node.observe event) next.runtime := by
  have under {revoke : Revoke} (current : node.revoke = revoke) (goes : revoke ≠ .idle) : node.revoke ≠ .idle :=
    current ▸ goes
  cases event with simp only [stepRevoke] at step
  | revoke commit =>
    split_ifs at step with free
    cases step
    rcases eq_none_or_eq_some node.worker with unassigned | ⟨id, assigned⟩
    · have same : node.removeWorkers = node := by simp only [removeWorkers, unassigned]
      rw [same]
      exact .revoking unassigned
    · have removed : node.removeWorkers = { node with worker := none, queuedRecords := [], pauseReasons := ∅ } := by
        simp only [removeWorkers, assigned]
      rw [removed]
      exact .revoke
  | revokeCancel | revokeDeactivate =>
    split at step
    · next id commit current =>
      obtain ⟨_, stops, rfl⟩ := map_eq_some_iff.mp step
      obtain ⟨worker, present, rfl⟩ := map_eq_some_iff.mp stops
      have busy := under current (by rintro ⟨⟩)
      exact effect_setRevoke (node.setWorker id _) busy (by rintro ⟨⟩) (.disturb (.inl (decide_eq_true busy)) present)
    · cases step
  | revokeCollect | revokeCommit =>
    split at step <;> cases step
    all_goals
      next current =>
        exact effect_setRevoke node (under current (by rintro ⟨⟩)) (by rintro ⟨⟩) .quiet
  | revokeDrop =>
    split at step <;> cases step
    · next record current idle =>
      exact effect_setRevoke node.dropPartitions (under current (by rintro ⟨⟩)) (by rintro ⟨⟩) .quiet
    · exact .revoked
  | revokeReturn result =>
    split at step <;> cases step
    rw [runtime_commitRecords]
    exact .revoked
  | _ => cases step

theorem effect_stepShutdown (step : node.stepShutdown event = some next) :
    node.runtime.Effect cfg (node.observe event) next.runtime := by
  have under {shutdown : Shutdown} (current : node.shutdown = shutdown) (goes : shutdown ≠ .running) :
      node.shutdown ≠ .running := current ▸ goes
  cases event with simp only [stepShutdown] at step
  | stop =>
    split_ifs at step
    cases step
    exact .stop
  | stopCancel =>
    split at step <;> cases step
    next worker current =>
      have busy := under current (by rintro ⟨⟩)
      exact effect_setShutdown { node with cancelled := true } busy (by rintro ⟨⟩) (.cancel (decide_eq_true busy))
  | stopWorkerCancel | stopWorkerDeactivate =>
    split at step
    · next id current =>
      obtain ⟨_, stops, rfl⟩ := map_eq_some_iff.mp step
      obtain ⟨worker, present, rfl⟩ := map_eq_some_iff.mp stops
      have busy := under current (by rintro ⟨⟩)
      exact effect_setShutdown (node.setWorker id _) busy (by rintro ⟨⟩) (.disturb (.inr (decide_eq_true busy)) present)
    · cases step
  | stopCommitter =>
    split_ifs at step
    split at step <;> cases step
    all_goals
      next current =>
        exact effect_setShutdown node (under current (by rintro ⟨⟩)) (by rintro ⟨⟩) .quiet
  | stopCollect expired =>
    split at step
    · next current =>
      split at step <;> cases step
      all_goals
        exact effect_setShutdown node (under current (by rintro ⟨⟩)) (by rintro ⟨⟩) .quiet
    · cases step
  | stopCommit =>
    split at step <;> cases step
    next record current =>
      exact effect_setShutdown node (under current (by rintro ⟨⟩)) (by rintro ⟨⟩) .quiet
  | stopReturn result =>
    split at step <;> cases step
    next record current =>
      rw [runtime_commitRecords]
      exact effect_setShutdown node (under current (by rintro ⟨⟩)) (by rintro ⟨⟩) .quiet
  | _ => cases step

section

variable (governed : node.runtime.Governed)

include governed

theorem effect_stepClient (step : node.stepClient cfg log event = some next) :
    node.runtime.Effect cfg (node.observe event) next.runtime := by
  cases event with simp only [stepClient] at step
  | assign =>
    split_ifs at step with free
    cases step
    unfold assign
    split_ifs with refused
    · exact .quiet
    · obtain ⟨alive, unassigned⟩ := not_or.mp refused
      exact .assign (not_not.mp unassigned) (decide_eq_false (not_not.mpr free)) (eq_false_iff.mpr alive)
  | poll count =>
    split_ifs at step
    cases step
    exact .quiet
  | enqueue =>
    split at step <;> cases step
    next record rest polled =>
      rcases eq_none_or_eq_some node.worker with unassigned | ⟨id, assigned⟩
      · have seen : node.observe .enqueue = none := by simp only [observe, polled, unassigned]
        rw [enqueue_of_none { node with polled := rest } unassigned, seen]
        exact .quiet
      · obtain ⟨worker, present⟩ : ∃ worker, node.heap id = some worker := governed.present id assigned
        have alive : node.stopped = false := governed.alive assigned
        have seen : node.observe .enqueue = some (.accepted id record) := by simp only [observe, polled, assigned]
        rw [enqueue_of_some { node with polled := rest } assigned present alive, seen]
        split_ifs with waiting room
        · rw [runtime_pauseLocked]
          exact .overflow assigned present fun empty => absurd empty waiting
        · exact .push assigned present (not_not.mp waiting)
        · have empty : node.runtime.queuedRecords = [] := not_not.mp waiting
          have full := @Runtime.Effect.overflow cfg node.runtime id worker record assigned present fun _ => not_lt.mp room
          rw [empty] at full
          rw [runtime_pauseLocked]
          exact full
  | _ => cases step

theorem effect_markCompleted (present : node.heap id = some worker)
    (phase : worker.phase = .completing record) :
    node.runtime.Effect cfg none (node.markCompleted cfg id worker record).runtime := by
  unfold markCompleted
  split_ifs with active
  · unfold mark
    dsimp only
    split_ifs
    · rcases eq_none_or_eq_some node.worker with unassigned | ⟨other, assigned⟩
      · rw [setCommitBackpressure_of_none (by exact unassigned)]
        exact .mark present phase
      · rw [runtime_setCommitBackpressure (by exact assigned) (by exact governed.alive assigned)]
        exact .markBlocked assigned present phase
    · exact .mark present phase
  · exact .quit present (.inl (eq_false_iff.mpr active)) (.inl rfl)

theorem effect_afterProcessed (present : node.heap id = some worker) (phase : worker.phase = .marked) :
    node.runtime.Effect cfg none (node.afterProcessed cfg id worker).runtime := by
  by_cases removed : node.worker ≠ some id ∨ node.stopped = true
  · rw [afterProcessed, if_pos removed]
    refine .leave present phase (removed.elim (fun other => other) fun stopped assigned => ?_)
    cases assigned.symm.trans (governed.stopped stopped)
  · rw [runtime_afterProcessed worker removed]
    exact .refill (not_not.mp (not_or.mp removed).1) present phase

theorem effect_stepWorker (step : node.stepWorker cfg event = some next) :
    node.runtime.Effect cfg (node.observe event) next.runtime := by
  cases event with
  | receive id =>
    obtain ⟨worker, present, step⟩ := bind_eq_some_iff.mp step
    split at step <;> cases step
    next record rest phase records =>
      have seen : node.observe (.receive id) = some (.called id record) := by
        simp [observe, present, records]
      rw [seen]
      exact .receive present phase records
  | exit id =>
    obtain ⟨worker, present, step⟩ := bind_eq_some_iff.mp step
    split_ifs at step with told
    cases step
    rw [ctxDone, or_eq_true] at told
    exact .quit present (.inr told.2) (.inl rfl)
  | handled id outcome =>
    obtain ⟨worker, present, step⟩ := bind_eq_some_iff.mp step
    split at step
    · next record phase =>
      split_ifs at step <;> cases step
      · exact .advance present (by rw [phase]; rintro ⟨⟩) (by rw [phase]; rfl) (.inl rfl)
      · exact effect_handlerReturned present (by rw [phase]; rfl) (.inl rfl)
    · cases step
  | pause id =>
    obtain ⟨worker, present, step⟩ := bind_eq_some_iff.mp step
    split at step <;> cases step
    next record phase =>
      unfold pause
      split_ifs with removed
      · exact .advance present (by rw [phase]; rintro ⟨⟩) (by rw [phase]; rfl) (.inl rfl)
      · rw [runtime_pauseLocked]
        exact .retry (not_not.mp (not_or.mp removed).1) present phase
  | retried id outcome =>
    obtain ⟨worker, present, step⟩ := bind_eq_some_iff.mp step
    split at step
    · next record attempt phase =>
      have recalls : Runtime.Recalls id worker (node.observe (.retried id outcome)) := by
        refine .inr ⟨record, by rw [phase]; rfl, ?_⟩
        simp [observe, present, phase, WorkerPhase.record]
      split at step <;> cases step
      · exact .advance present (by rw [phase]; rintro ⟨⟩) (by rw [phase]; rfl) recalls
      · exact effect_handlerReturned present (by rw [phase]; rfl) recalls
    · cases step
  | retryCancelled id =>
    obtain ⟨worker, present, step⟩ := bind_eq_some_iff.mp step
    split at step
    · split_ifs at step with told
      cases step
      rw [ctxDone, or_eq_true] at told
      exact .quit present (.inr told) (.inl rfl)
    · cases step
  | mark id =>
    obtain ⟨worker, present, step⟩ := bind_eq_some_iff.mp step
    split at step <;> cases step
    next record phase => exact effect_markCompleted governed present phase
  | afterProcessed id =>
    obtain ⟨worker, present, step⟩ := bind_eq_some_iff.mp step
    split_ifs at step with marked
    cases step
    exact effect_afterProcessed governed present marked
  | _ => cases step

theorem effect_stepCommitter (step : node.stepCommitter cfg event = some next) :
    node.runtime.Effect cfg (node.observe event) next.runtime := by
  cases event with simp only [stepCommitter] at step
  | flushTake | flushAbandon =>
    split at step
    · split_ifs at step
      cases step
      exact .quiet
    · cases step
  | flushCommit =>
    split at step <;> cases step
    exact .quiet
  | flushReturn result =>
    split at step
    · next record count flushing =>
      cases result with
      | ok =>
        cases step
        unfold acknowledge
        split_ifs
        · rcases eq_none_or_eq_some node.worker with unassigned | ⟨id, assigned⟩
          · rw [setCommitBackpressure_of_none (by exact unassigned)]
            exact .quiet
          · rw [runtime_setCommitBackpressure (by exact assigned) (by exact governed.alive assigned)]
            exact .acknowledge assigned
        · exact .quiet
      | failed applied =>
        cases step
        cases applied <;> split_ifs <;> exact .quiet
    · cases step
  | committerExit =>
    split_ifs at step
    cases step
    exact .quiet
  | _ => cases step

theorem effect_step (step : (partitionMachine cfg log).step node event = some next) :
    node.runtime.Effect cfg (node.observe event) next.runtime := by
  rcases step_cases step with client | worker | committer | revoke | shutdown
  · exact effect_stepClient governed client
  · exact effect_stepWorker governed worker
  · exact effect_stepCommitter governed committer
  · exact effect_stepRevoke revoke
  · exact effect_stepShutdown shutdown

end

theorem governed_start (committed : ℕ) : ({ committed } : PartitionNode).runtime.Governed where
  revoking := by rintro ⟨⟩
  stopping := by rintro ⟨⟩
  cancelled := by rintro ⟨⟩
  stopped := by rintro ⟨⟩
  present := by rintro _ ⟨⟩

end PartitionNode

end Cordis.Kafka
