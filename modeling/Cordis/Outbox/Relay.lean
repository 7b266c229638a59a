import Cordis.Machine.Run
import Cordis.Outbox.Tables
import Mathlib.Data.List.Sort

/-! # Relaying the outbox to Kafka

Any number of workers, each on a database session of its own, drain the outbox shard by shard. A worker
lists the shards with rows that are due, takes the advisory lock of a shard, and then publishes the
heads of the shard's streams and acknowledges the results in a transaction, until none are due or its
time is up. Every statement may fail and a session may end at any point, which frees its locks and
rolls back its open transaction.

A record that was handed to the producer may reach the log at any time from then on, also after the
worker is gone and more than once; a result is a success only if it has. The histories `handed`, `log`
and `succeeded` are for stating properties, as is the order of `log`.
-/

namespace Cordis.Outbox

variable {Body : Type}

structure FailedUpdate where
  outboxID : ℤ
  attempts : ℕ
  nextAttemptAt : ℤ
deriving DecidableEq, Repr

/-- `DISTINCT ON (stream_key) … ORDER BY stream_key, stream_sequence`: the rows with no earlier row of
their stream. A stream has no sequence twice. -/
def streamHeads (rows : List (Row Body)) : List (Row Body) :=
  rows.filter fun row => ∀ other ∈ rows, other.record.streamKey = row.record.streamKey →
    row.record.streamSequence ≤ other.record.streamSequence

/-- `ORDER BY created_at, outbox_id`. -/
def Row.Before (first second : Row Body) : Prop :=
  first.record.createdAt < second.record.createdAt ∨
    first.record.createdAt = second.record.createdAt ∧ first.record.outboxID ≤ second.record.outboxID
deriving Decidable

/-- The back-off that the updates set for the row, if any. -/
def Row.backOff (updates : List FailedUpdate) (row : Row Body) : Row Body :=
  match updates.find? fun update => update.outboxID = row.record.outboxID with
  | some update => if row.owner = none then
      { row with attempts := update.attempts, nextAttemptAt := update.nextAttemptAt } else row
  | none => row

namespace Tables

variable (tables : Tables Body)

/-- The rows that other transactions see. -/
def visible : List (Row Body) := tables.events.filter fun row => row.owner = none

def selectHeads (shard : ℕ) (now : ℤ) (limit : ℕ) : List (Row Body) :=
  (((streamHeads (tables.visible.filter fun row => row.record.relayShardID = shard)).filter
    fun row => row.nextAttemptAt ≤ now).insertionSort Row.Before).take limit

def listReadyShards (now : ℤ) : List ℕ :=
  ((tables.visible.filter fun row => row.nextAttemptAt ≤ now).map (·.record.relayShardID)).dedup.insertionSort (· ≤ ·)

def deleteDelivered (outboxIDs : List ℤ) : Tables Body :=
  { tables with events := tables.events.filter fun row => ¬ (row.owner = none ∧ row.record.outboxID ∈ outboxIDs) }

def updateFailed (updates : List FailedUpdate) : Tables Body :=
  { tables with events := tables.events.map (Row.backOff updates) }

end Tables

/-- Where a worker is in `workOnce`; the shards still to visit are kept beside. -/
inductive RelayPhase (Body : Type) where
  | scanning
  /-- The head of the loop of `processShard`. -/
  | holding (shard : ℕ)
  | publishing (shard : ℕ) (heads : List (Row Body))
  /-- The results are in, before the transaction. -/
  | reported (shard : ℕ) (delivered : List ℤ) (failed : List FailedUpdate)
  | unlocking (shard : ℕ) (failed : Bool)

structure Worker (Body : Type) where
  phase : RelayPhase Body
  shards : List ℕ

/-- How the transaction of an acknowledgement ended. -/
inductive AckOutcome where
  | committed
  /-- The commit was applied and its answer was lost. -/
  | lost
  | failed
deriving DecidableEq, Repr

structure Relay (Body : Type) where
  tables : Tables Body := {}
  /-- The session that holds the lock of a shard, and how often it has taken it. -/
  locks : ℕ → Option (ℕ × ℕ) := fun _ => none
  workers : Pool ℕ (Worker Body) := Pool.empty
  handed : List (Record Body) := []
  log : List (Record Body) := []
  succeeded : List (Record Body) := []

inductive RelayEvent (Body : Type) where
  | ensureStream (tx : ℕ) (streamKey : String) (shardCount : ℕ)
  | reserveSequences (tx : ℕ) (streamKey : String) (count : ℕ)
  | insertBatch (tx : ℕ) (drafts : List (Draft Body))
  | commit (tx : ℕ)
  | rollback (tx : ℕ)
  | listReadyShards (session : ℕ) (now : ℤ)
  | tryLock (session : ℕ)
  /-- `workOnce` returns, at its end or with an error before a lock is taken. -/
  | finish (session : ℕ)
  | selectHeads (session : ℕ) (now : ℤ) (limit : ℕ)
  /-- The time slice is over, or `SelectHeads` has failed. -/
  | leaveShard (session : ℕ) (failed : Bool)
  /-- A record that was handed to the producer reaches the log. -/
  | deliver (record : Record Body)
  /-- `PublishBatchWithResults` returns; a failure comes with the time of the next attempt. -/
  | report (session : ℕ) (results : List (Option ℤ))
  | acknowledge (session : ℕ) (outcome : AckOutcome)
  /-- `pg_advisory_unlock`, executed or not, and answered without error or not. -/
  | unlock (session : ℕ) (executed answered : Bool)
  /-- The session ends, with its worker. -/
  | crash (session : ℕ)

namespace Relay

variable [DecidableEq Body]

variable (relay : Relay Body) (session shard : ℕ)

/-- The lock of a shard is taken, once more if the session holds it already. -/
def tryLock : Option (ℕ → Option (ℕ × ℕ)) :=
  match relay.locks shard with
  | none => some (Function.update relay.locks shard (some (session, 1)))
  | some (holder, depth) =>
    if holder = session then some (Function.update relay.locks shard (some (session, depth + 1))) else none

def unlock : ℕ → Option (ℕ × ℕ) :=
  match relay.locks shard with
  | none => relay.locks
  | some (holder, depth) =>
    if holder = session then
      Function.update relay.locks shard (if depth ≤ 1 then none else some (session, depth - 1))
    else relay.locks

/-- The heads whose publication the results call a success. -/
def delivered (heads : List (Row Body)) (results : List (Option ℤ)) : List (Row Body) :=
  ((heads.zip results).filter fun pair => pair.2.isNone).map Prod.fst

def failedUpdates (heads : List (Row Body)) (results : List (Option ℤ)) : List FailedUpdate :=
  (heads.zip results).filterMap fun pair =>
    pair.2.map fun nextAttemptAt => ⟨pair.1.record.outboxID, pair.1.attempts + 1, nextAttemptAt⟩

def setWorker (phase : RelayPhase Body) (shards : List ℕ) : Relay Body :=
  { relay with workers := relay.workers.set session ⟨phase, shards⟩ }

def acknowledge (delivered : List ℤ) (failed : List FailedUpdate) : Relay Body :=
  { relay with tables := (relay.tables.deleteDelivered delivered).updateFailed failed }

def stepWorker (worker : Worker Body) : RelayEvent Body → Option (Relay Body)
  | .tryLock _ =>
    match worker.phase, worker.shards with
    | .scanning, shard :: rest =>
      match relay.tryLock session shard with
      | some locks => some ({ relay with locks }.setWorker session (.holding shard) rest)
      | none => some (relay.setWorker session .scanning rest)
    | _, _ => none
  | .finish _ =>
    match worker.phase with
    | .scanning => some { relay with workers := relay.workers.drop session }
    | _ => none
  | .selectHeads _ now limit =>
    match worker.phase with
    | .holding shard =>
      match relay.tables.selectHeads shard now limit with
      | [] => some (relay.setWorker session (.unlocking shard false) worker.shards)
      | heads => some ({ relay with handed := relay.handed ++ heads.map Row.record }.setWorker session
          (.publishing shard heads) worker.shards)
    | _ => none
  | .leaveShard _ failed =>
    match worker.phase with
    | .holding shard => some (relay.setWorker session (.unlocking shard failed) worker.shards)
    | _ => none
  | .report _ results =>
    match worker.phase with
    | .publishing shard heads =>
      if results.length = heads.length ∧ ∀ row ∈ delivered heads results, row.record ∈ relay.log then
        some ({ relay with succeeded := relay.succeeded ++ (delivered heads results).map Row.record }.setWorker session
          (.reported shard ((delivered heads results).map fun row : Row Body => row.record.outboxID) (failedUpdates heads results))
          worker.shards)
      else none
    | _ => none
  | .acknowledge _ outcome =>
    match worker.phase with
    | .reported shard delivered failed =>
      match outcome with
      | .committed => some ((relay.acknowledge delivered failed).setWorker session (.holding shard) worker.shards)
      | .lost => some ((relay.acknowledge delivered failed).setWorker session (.unlocking shard true) worker.shards)
      | .failed => some (relay.setWorker session (.unlocking shard true) worker.shards)
    | _ => none
  | .unlock _ executed answered =>
    match worker.phase with
    | .unlocking shard failed =>
      let locks := if executed then relay.unlock session shard else relay.locks
      if failed = false ∧ answered = true then
        some ({ relay with locks }.setWorker session .scanning worker.shards)
      else some { relay with locks, workers := relay.workers.drop session }
    | _ => none
  | _ => none

def step (event : RelayEvent Body) : Option (Relay Body) :=
  match event with
  | .ensureStream tx streamKey shardCount =>
    (shardID streamKey shardCount).bind fun shard =>
      (relay.tables.ensureStream tx streamKey shard).map fun tables => { relay with tables }
  | .reserveSequences tx streamKey count =>
    (relay.tables.reserveSequences tx streamKey count).map fun tables => { relay with tables }
  | .insertBatch tx drafts => (relay.tables.insertBatch tx drafts).map fun tables => { relay with tables }
  | .commit tx => (relay.tables.commit tx).map fun tables => { relay with tables }
  | .rollback tx => some { relay with tables := relay.tables.rollback tx }
  | .listReadyShards session now =>
    match relay.workers session with
    | none => some (relay.setWorker session .scanning (relay.tables.listReadyShards now))
    | some _ => none
  | .deliver record => if record ∈ relay.handed then some { relay with log := relay.log ++ [record] } else none
  | .crash session => some { relay with
      workers := relay.workers.drop session
      locks := fun shard => (relay.locks shard).filter fun lock => lock.1 ≠ session }
  | .tryLock session | .finish session | .selectHeads session .. | .leaveShard session _ | .report session _
  | .acknowledge session _ | .unlock session .. =>
    (relay.workers session).bind fun worker => relay.stepWorker session worker event

end Relay

def relayMachine [DecidableEq Body] : Machine (Relay Body) (RelayEvent Body) where
  step := Relay.step

end Cordis.Outbox
