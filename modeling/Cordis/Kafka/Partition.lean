import Cordis.Machine.Run
import Cordis.Machine.Pool
import Mathlib.Data.Finset.Basic

/-! # The partition consumer over one partition

The poll loop hands records to the worker that is currently assigned, through a bounded channel and
an overflow list. The worker processes them one by one and marks each completed one in the
committer, which coalesces them to one pending offset and commits it from a goroutine of its own.
A rebalance stops the worker and commits its last completed record; so does the shutdown. Each of
these goroutines is a program counter here, cut where it takes or releases a lock or calls Kafka.

The client fetches the log from the committed offset when the partition is assigned, and hands out
batches in order; a rebalance ends that session but cannot take back a batch the poll loop already
holds. Assignments are numbered, and a worker's address is the number of its assignment.
`polledFrom`, `completed` and a worker's `base` and `finished` record the history for stating
properties; no step reads them.
-/

namespace Cordis.Kafka

structure Record where
  offset : ℕ
  leaderEpoch : ℤ
deriving DecidableEq, Repr

/-- The records of the partition, as far as the run goes. -/
structure PartitionLog where
  records : List Record
  increasing : records.Pairwise fun earlier later =>
    earlier.offset < later.offset ∧ earlier.leaderEpoch ≤ later.leaderEpoch

/-- The candidate comes after the current record: by leader epoch first, then by offset. -/
def recordAfter (current candidate : Record) : Bool :=
  decide (current.leaderEpoch < candidate.leaderEpoch ∨
    current.leaderEpoch = candidate.leaderEpoch ∧ current.offset < candidate.offset)

/-- The pending offset of a partition after a record has been offered: only a later record replaces
the one that is there. -/
def laterOffset (pending : Option Record) (record : Record) : Option Record :=
  match pending with
  | none => some record
  | some current => if recordAfter current record then some record else some current

theorem laterOffset_eq_some {pending : Option Record} {record other : Record}
    (later : laterOffset pending record = some other) : other = record ∨ pending = some other := by
  unfold laterOffset at later
  split at later
  · cases later
    exact .inl rfl
  · split_ifs at later
    · cases later
      exact .inl rfl
    · cases later
      exact .inr rfl

structure Config where
  maxPollRecords : ℤ := 0
  queueSize : ℤ := 0
  maxUncommittedRecords : ℤ := 0
  retryMaxAttempts : ℤ := 0
  dropAfterRetryExhausted : Bool := false
deriving DecidableEq, Repr

namespace Config

def withDefaults (cfg : Config) : Config :=
  { cfg with
    maxPollRecords := if cfg.maxPollRecords ≤ 0 then 32 else cfg.maxPollRecords
    queueSize := if cfg.queueSize ≤ 0 then 16 else cfg.queueSize
    maxUncommittedRecords := if cfg.maxUncommittedRecords ≤ 0 then 128 else cfg.maxUncommittedRecords }

def maxPoll (cfg : Config) : ℕ := cfg.withDefaults.maxPollRecords.toNat

/-- The capacity of a worker's channel. -/
def channelSize (cfg : Config) : ℕ := cfg.withDefaults.queueSize.toNat

def maxUncommitted (cfg : Config) : ℕ := cfg.withDefaults.maxUncommittedRecords.toNat

end Config

/-- What a handler call returned. -/
inductive Outcome where
  | ok
  | permanent
  | retryable
deriving DecidableEq, Repr

inductive WorkerPhase where
  /-- The `select` of the worker's loop. -/
  | receiving
  /-- The first handler call. -/
  | handling (record : Record)
  /-- A retryable error, before the partition is paused. -/
  | pausing (record : Record)
  /-- The loop of `retryRecord`. -/
  | retrying (record : Record) (attempt : ℕ)
  | completing (record : Record)
  /-- After `markCompleted`, before `afterProcessed`. -/
  | marked
  /-- `done` is closed. -/
  | stopped
deriving DecidableEq, Repr

structure Worker where
  records : List Record := []
  phase : WorkerPhase := .receiving
  cancelled : Bool := false
  active : Bool := true
  lastCompleted : Option Record := none
  /-- The offset its session was fetched from. -/
  base : ℕ
  /-- What it has completed, in order. -/
  finished : List Record := []
deriving Repr

inductive PauseReason where
  | queue
  | retry
  | commit
deriving DecidableEq, Repr

/-- `flush` of the committer; it holds `commitMu` unless idle. -/
inductive Flush where
  | idle
  | taken (record : Record) (count : ℕ)
  | committing (record : Record) (count : ℕ)
deriving DecidableEq, Repr

/-- The rebalance callback `revoke`. -/
inductive Revoke where
  | idle
  | removed (worker : Option ℕ) (commit : Bool)
  | cancelled (worker : ℕ) (commit : Bool)
  | inactive (worker : ℕ) (commit : Bool)
  | collected (record : Option Record) (commit : Bool)
  | calling (record : Record)
  | committing (record : Record)
deriving DecidableEq, Repr

/-- Whether the callback holds `commitMu`. -/
def Revoke.locks : Revoke → Bool
  | .calling _ | .committing _ => true
  | _ => false

/-- `stopWithContext`. -/
inductive Shutdown where
  | running
  | removed (worker : Option ℕ)
  /-- `r.cancel` has run. -/
  | cancelling (worker : Option ℕ)
  | cancelled (worker : ℕ)
  | inactive (worker : Option ℕ)
  /-- The committer's goroutine has ended. -/
  | joined (worker : Option ℕ)
  | calling (record : Record)
  | committing (record : Record)
  | done
deriving DecidableEq, Repr

structure PartitionNode where
  heap : Pool ℕ Worker := Pool.empty
  /-- The assigned worker, `r.workers[key]`. -/
  worker : Option ℕ := none
  queuedRecords : List Record := []
  pauseReasons : Finset PauseReason := ∅
  fetchPaused : Bool := false
  stopped : Bool := false
  /-- The runtime's context, the parent of the committer's and the workers'. -/
  cancelled : Bool := false
  pendingOffset : Option Record := none
  uncommitted : ℕ := 0
  backpressured : Bool := false
  flush : Flush := .idle
  committerDone : Bool := false
  revoke : Revoke := .idle
  shutdown : Shutdown := .running
  /-- The rest of the batch the poll loop is enqueueing. -/
  polled : List Record := []
  /-- What the current fetch session has still to hand out. -/
  unfetched : List Record := []
  /-- The committed offset, the next one to be consumed. -/
  committed : ℕ := 0
  assignments : ℕ := 0
  polledFrom : ℕ := 0
  completed : List Record := []

/-- How a `CommitRecords` call ends. A call that fails may have been applied all the same. -/
inductive CommitResult where
  | ok
  | failed (applied : Bool)
deriving DecidableEq, Repr

inductive PartitionEvent where
  | assign
  | poll (count : ℕ)
  | enqueue
  | receive (worker : ℕ)
  | exit (worker : ℕ)
  | handled (worker : ℕ) (outcome : Outcome)
  | pause (worker : ℕ)
  | retried (worker : ℕ) (outcome : Outcome)
  | retryCancelled (worker : ℕ)
  | mark (worker : ℕ)
  | afterProcessed (worker : ℕ)
  | flushTake
  | flushAbandon
  | flushCommit
  | flushReturn (result : CommitResult)
  | committerExit
  | revoke (commit : Bool)
  | revokeCancel
  | revokeDeactivate
  | revokeCollect
  | revokeDrop
  | revokeCommit
  | revokeReturn (result : CommitResult)
  | stop
  | stopCancel
  | stopWorkerCancel
  | stopWorkerDeactivate
  | stopCommitter
  | stopCollect (expired : Bool)
  | stopCommit
  | stopReturn (result : CommitResult)
deriving DecidableEq, Repr

namespace PartitionNode

variable (cfg : Config) (log : PartitionLog) (node : PartitionNode)

/-! ## The runtime under `r.mu` -/

def pauseLocked (reason : PauseReason) : PartitionNode :=
  if reason ∈ node.pauseReasons then node
  else
    { node with
      pauseReasons := insert reason node.pauseReasons
      fetchPaused := if node.pauseReasons = ∅ then true else node.fetchPaused }

def resumeLocked (reasons : Finset PauseReason) : PartitionNode :=
  if node.pauseReasons ∩ reasons = ∅ then node
  else if node.pauseReasons \ reasons ≠ ∅ then
    { node with pauseReasons := node.pauseReasons \ reasons }
  else { node with pauseReasons := ∅, fetchPaused := false }

def setCommitBackpressure (blocked : Bool) : PartitionNode :=
  if node.worker = none ∨ node.stopped = true then node
  else if blocked then node.pauseLocked .commit
  else node.resumeLocked {.commit}

variable (id : ℕ) (worker : Worker) (record : Record)

def setWorker : PartitionNode :=
  { node with heap := node.heap.set id worker }

/-- A new worker, unless there is one already. The fetch session starts at the committed offset. -/
def assign : PartitionNode :=
  if node.stopped = true ∨ node.worker ≠ none then node
  else
    { node with
      heap := node.heap.set (node.assignments + 1) { base := node.committed }
      worker := some (node.assignments + 1)
      fetchPaused := false
      unfetched := log.records.filter fun record => decide (node.committed ≤ record.offset)
      assignments := node.assignments + 1 }

def enqueue : PartitionNode :=
  match node.worker with
  | none => node
  | some id =>
    match node.heap id with
    | none => node
    | some worker =>
      if node.stopped then node
      else if node.queuedRecords ≠ [] then
        { node with queuedRecords := node.queuedRecords ++ [record] }.pauseLocked .queue
      else if worker.records.length < cfg.channelSize then
        node.setWorker id { worker with records := worker.records ++ [record] }
      else { node with queuedRecords := [record] }.pauseLocked .queue

/-- `pause` of a worker that starts to retry. -/
def pause : PartitionNode :=
  if node.worker ≠ some id ∨ node.stopped = true then node else node.pauseLocked .retry

/-- Refill the channel from the overflow list, and resume when nothing is left to do. -/
def afterProcessed : PartitionNode :=
  if node.worker ≠ some id ∨ node.stopped = true then node.setWorker id { worker with phase := .receiving }
  else
    let room := cfg.channelSize - worker.records.length
    let records := worker.records ++ node.queuedRecords.take room
    let refilled := { node with queuedRecords := node.queuedRecords.drop room }.setWorker id
      { worker with records, phase := .receiving }
    if refilled.queuedRecords = [] ∧ records = [] then refilled.resumeLocked {.queue, .retry}
    else refilled

def removeWorkers : PartitionNode :=
  match node.worker with
  | none => node
  | some _ => { node with worker := none, queuedRecords := [], pauseReasons := ∅ }

/-! ## The committer under `c.mu` -/

def mark : PartitionNode :=
  let counted := { node with
    pendingOffset := laterOffset node.pendingOffset record, uncommitted := node.uncommitted + 1 }
  if cfg.maxUncommitted ≤ counted.uncommitted ∧ counted.backpressured = false then
    { counted with backpressured := true }.setCommitBackpressure true
  else counted

def acknowledge (count : ℕ) : PartitionNode :=
  if node.backpressured = true ∧ node.uncommitted - count < cfg.maxUncommitted then
    { node with
      uncommitted := node.uncommitted - count, backpressured := false }.setCommitBackpressure false
  else { node with uncommitted := node.uncommitted - count }

def requeue : PartitionNode :=
  { node with pendingOffset := laterOffset node.pendingOffset record }

def dropPartitions : PartitionNode :=
  { node with pendingOffset := none, uncommitted := 0, backpressured := false }

/-- The broker's side of a finished commit. -/
def commitRecords : CommitResult → PartitionNode
  | .ok | .failed true => { node with committed := record.offset + 1 }
  | .failed false => node

/-! ## The goroutines -/

/-- The context of a worker is done. -/
def ctxDone : Bool := worker.cancelled || node.cancelled

/-- A worker checks its context after the last handler call for a record. -/
def handlerReturned : PartitionNode :=
  if node.ctxDone worker then node.setWorker id { worker with phase := .stopped }
  else node.setWorker id { worker with phase := .completing record }

/-- One round of `retryRecord`: the attempt to go on with, or none when the loop is left. -/
def retryRecord (attempt : ℕ) : Outcome → Option ℕ
  | .ok | .permanent => none
  | .retryable =>
    if 0 < cfg.retryMaxAttempts ∧ cfg.retryMaxAttempts ≤ attempt then
      if cfg.dropAfterRetryExhausted then none else some 1
    else some (attempt + 1)

/-- `markCompleted`: the watermark and the hand-off to the committer under the worker's lock. -/
def markCompleted : PartitionNode :=
  if worker.active then
    { node.setWorker id { worker with
        phase := .marked
        lastCompleted := some record
        finished := worker.finished ++ [record] } with
      completed := record :: node.completed }.mark cfg record
  else node.setWorker id { worker with phase := .stopped }

def stepClient : PartitionEvent → Option PartitionNode
  | .assign => if node.revoke = .idle then some (node.assign log) else none
  | .poll count =>
      if node.polled = [] ∧ count ≤ cfg.maxPoll then
        some { node with
          polled := node.unfetched.take count
          unfetched := node.unfetched.drop count
          polledFrom := node.assignments }
      else none
  | .enqueue =>
      match node.polled with
      | [] => none
      | record :: rest => some ({ node with polled := rest }.enqueue cfg record)
  | _ => none

def stepWorker : PartitionEvent → Option PartitionNode
  | .receive id => do
      let worker ← node.heap id
      match worker.phase, worker.records with
      | .receiving, record :: rest =>
          some (node.setWorker id { worker with records := rest, phase := .handling record })
      | _, _ => none
  | .exit id => do
      let worker ← node.heap id
      if worker.phase = .receiving ∧ node.ctxDone worker = true then
        some (node.setWorker id { worker with phase := .stopped })
      else none
  | .handled id outcome => do
      let worker ← node.heap id
      match worker.phase with
      | .handling record =>
          if outcome = .retryable then some (node.setWorker id { worker with phase := .pausing record })
          else some (node.handlerReturned id worker record)
      | _ => none
  | .pause id => do
      let worker ← node.heap id
      match worker.phase with
      | .pausing record => some ((node.setWorker id { worker with phase := .retrying record 1 }).pause id)
      | _ => none
  | .retried id outcome => do
      let worker ← node.heap id
      match worker.phase with
      | .retrying record attempt =>
          match retryRecord cfg attempt outcome with
          | some next => some (node.setWorker id { worker with phase := .retrying record next })
          | none => some (node.handlerReturned id worker record)
      | _ => none
  | .retryCancelled id => do
      let worker ← node.heap id
      match worker.phase with
      | .retrying _ _ =>
          if node.ctxDone worker then some (node.setWorker id { worker with phase := .stopped }) else none
      | _ => none
  | .mark id => do
      let worker ← node.heap id
      match worker.phase with
      | .completing record => some (node.markCompleted cfg id worker record)
      | _ => none
  | .afterProcessed id => do
      let worker ← node.heap id
      if worker.phase = .marked then some (node.afterProcessed cfg id worker) else none
  | _ => none

def stepCommitter : PartitionEvent → Option PartitionNode
  | .flushTake =>
      match node.flush, node.pendingOffset with
      | .idle, some record =>
          if node.revoke.locks || node.committerDone then none
          else some { node with pendingOffset := none, flush := .taken record node.uncommitted }
      | _, _ => none
  | .flushAbandon =>
      match node.flush with
      | .taken _ _ => if node.cancelled then some { node with flush := .idle } else none
      | _ => none
  | .flushCommit =>
      match node.flush with
      | .taken record count => some { node with flush := .committing record count }
      | _ => none
  | .flushReturn result =>
      match node.flush with
      | .committing record count =>
          let returned := { node with flush := .idle }.commitRecords record result
          match result with
          | .ok => some (returned.acknowledge cfg count)
          | .failed _ => some (if node.cancelled then returned else returned.requeue record)
      | _ => none
  | .committerExit =>
      if node.cancelled = true ∧ node.flush = .idle then some { node with committerDone := true } else none
  | _ => none

/-- The first half of `stop` of a worker. -/
def cancelWorker : Option PartitionNode :=
  (node.heap id).map fun worker => node.setWorker id { worker with cancelled := true }

/-- The second half: from here on the worker completes nothing. -/
def deactivateWorker : Option PartitionNode :=
  (node.heap id).map fun worker => node.setWorker id { worker with active := false }

/-- The watermark of a worker. -/
def completedBy : Option Record := (node.heap id).bind Worker.lastCompleted

def stepRevoke : PartitionEvent → Option PartitionNode
  | .revoke commit =>
      if node.revoke = .idle then
        -- the client ends the fetch session before it calls back
        some { node.removeWorkers with revoke := .removed node.worker commit, unfetched := [] }
      else none
  | .revokeCancel =>
      match node.revoke with
      | .removed (some id) commit =>
          (node.cancelWorker id).map fun next => { next with revoke := .cancelled id commit }
      | _ => none
  | .revokeDeactivate =>
      match node.revoke with
      | .cancelled id commit =>
          (node.deactivateWorker id).map fun next => { next with revoke := .inactive id commit }
      | _ => none
  | .revokeCollect =>
      match node.revoke with
      | .removed none commit => some { node with revoke := .collected none commit }
      | .inactive id commit => some { node with revoke := .collected (node.completedBy id) commit }
      | _ => none
  | .revokeDrop =>
      match node.revoke, node.flush with
      | .collected (some record) true, .idle => some { node.dropPartitions with revoke := .calling record }
      | .collected _ _, .idle => some { node.dropPartitions with revoke := .idle }
      | _, _ => none
  | .revokeCommit =>
      match node.revoke with
      | .calling record => some { node with revoke := .committing record }
      | _ => none
  | .revokeReturn result =>
      match node.revoke with
      | .committing record => some ({ node with revoke := .idle }.commitRecords record result)
      | _ => none
  | _ => none

def stepShutdown : PartitionEvent → Option PartitionNode
  | .stop =>
      if node.shutdown = .running then
        some { node with
          stopped := true
          worker := none
          queuedRecords := []
          pauseReasons := ∅
          shutdown := .removed node.worker }
      else none
  | .stopCancel =>
      match node.shutdown with
      | .removed worker => some { node with cancelled := true, shutdown := .cancelling worker }
      | _ => none
  | .stopWorkerCancel =>
      match node.shutdown with
      | .cancelling (some id) => (node.cancelWorker id).map fun next => { next with shutdown := .cancelled id }
      | _ => none
  | .stopWorkerDeactivate =>
      match node.shutdown with
      | .cancelled id =>
          (node.deactivateWorker id).map fun next => { next with shutdown := .inactive (some id) }
      | _ => none
  | .stopCommitter =>
      if node.committerDone then
        match node.shutdown with
        | .cancelling none => some { node with shutdown := .joined none }
        | .inactive worker => some { node with shutdown := .joined worker }
        | _ => none
      else none
  | .stopCollect expired =>
      match node.shutdown with
      | .joined worker =>
          match expired, worker.bind node.completedBy with
          | false, some record => some { node with shutdown := .calling record }
          | _, _ => some { node with shutdown := .done }
      | _ => none
  | .stopCommit =>
      match node.shutdown with
      | .calling record => some { node with shutdown := .committing record }
      | _ => none
  | .stopReturn result =>
      match node.shutdown with
      | .committing record => some ({ node with shutdown := .done }.commitRecords record result)
      | _ => none
  | _ => none

def step (event : PartitionEvent) : Option PartitionNode :=
  match event with
  | .assign | .poll _ | .enqueue => node.stepClient cfg log event
  | .receive _ | .exit _ | .handled .. | .pause _ | .retried .. | .retryCancelled _ | .mark _
  | .afterProcessed _ => node.stepWorker cfg event
  | .flushTake | .flushAbandon | .flushCommit | .flushReturn _ | .committerExit =>
      node.stepCommitter cfg event
  | .revoke _ | .revokeCancel | .revokeDeactivate | .revokeCollect | .revokeDrop | .revokeCommit
  | .revokeReturn _ => node.stepRevoke event
  | .stop | .stopCancel | .stopWorkerCancel | .stopWorkerDeactivate | .stopCommitter | .stopCollect _
  | .stopCommit | .stopReturn _ => node.stepShutdown event

/-- The record `CommitRecords` is called with, by the steps that call it. -/
def commitCall : PartitionEvent → Option Record
  | .flushCommit =>
      match node.flush with
      | .taken record _ => some record
      | _ => none
  | .revokeCommit =>
      match node.revoke with
      | .calling record => some record
      | _ => none
  | .stopCommit =>
      match node.shutdown with
      | .calling record => some record
      | _ => none
  | _ => none

end PartitionNode

def partitionMachine (cfg : Config) (log : PartitionLog) : Machine PartitionNode PartitionEvent where
  step := PartitionNode.step cfg log

end Cordis.Kafka
