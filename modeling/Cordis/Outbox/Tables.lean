import Cordis.Machine.LockedTable
import Cordis.Machine.Pool
import Mathlib.Data.List.Nodup
import Mathlib.Data.List.Range

/-! # Writing to a transactional outbox

A writer's transaction makes sure that the row of a stream exists, reserves a range of sequences in it
and inserts one event row for each sequence, all under the lock of the stream's row, which it keeps
until it commits or rolls back. A transaction may do so for several streams, and more than once for
one. An error of a statement ends in a rollback, which may come at any time.

An event row carries the shard that is written in the row of its stream, whatever the shard count of
its writer. `history` is for stating properties only: the records of the committed transactions, in the
order of the commits.
-/

namespace Cordis.Outbox

/-- FNV-1a of 64 bits. -/
def fnv64a (text : String) : UInt64 :=
  text.toUTF8.data.toList.foldl (fun hash byte => (hash ^^^ byte.toUInt64) * 1099511628211) 14695981039346656037

/-- The virtual shard of a stream; the source panics without shards. -/
def shardID (streamKey : String) (shardCount : ℕ) : Option ℕ :=
  if shardCount = 0 then none else some ((fnv64a streamKey).toNat % shardCount)

structure Stream where
  relayShardID : ℕ
  lastSequence : ℕ
deriving DecidableEq, Repr

structure ReservedRange where
  firstSequence : ℕ
  lastSequence : ℕ
  shardID : ℕ
deriving DecidableEq, Repr

/-- An event as its writer inserts it. -/
structure Record (Body : Type) where
  outboxID : ℤ
  streamKey : String
  relayShardID : ℕ
  streamSequence : ℕ
  createdAt : ℤ
  body : Body
deriving DecidableEq, Repr

/-- What a writer knows of an event before its sequence is reserved. -/
structure Draft (Body : Type) where
  outboxID : ℤ
  createdAt : ℤ
  body : Body

/-- A row of the event table, with the transaction that has inserted it until that commits. -/
structure Row (Body : Type) where
  record : Record Body
  owner : Option ℕ
  attempts : ℕ := 0
  nextAttemptAt : ℤ := 0

structure Tables (Body : Type) where
  streams : LockedTable ℕ String Stream := .empty
  events : List (Row Body) := []
  /-- The range that a transaction has reserved and not used yet. -/
  reserved : Pool ℕ (String × ReservedRange) := Pool.empty
  history : List (Record Body) := []

variable {Body : Type}

/-- The records of one stream for consecutive sequences. -/
def records (streamKey : String) (shard : ℕ) : ℕ → List (Draft Body) → List (Record Body)
  | _, [] => []
  | sequence, draft :: drafts =>
      { outboxID := draft.outboxID, streamKey, relayShardID := shard, streamSequence := sequence,
        createdAt := draft.createdAt, body := draft.body } :: records streamKey shard (sequence + 1) drafts

namespace Tables

variable (tables : Tables Body) (tx : ℕ) (streamKey : String)

/-- `INSERT … ON CONFLICT DO NOTHING`; an uncommitted row of another transaction is waited for. -/
def ensureStream (shard : ℕ) : Option (Tables Body) :=
  match tables.streams.read tx streamKey with
  | some _ => some tables
  | none => (tables.streams.write tx streamKey ⟨shard, 0⟩).map fun streams => { tables with streams }

def reserveSequences (count : ℕ) : Option (Tables Body) :=
  match tables.reserved tx, tables.streams.read tx streamKey with
  | none, some stream =>
    if 0 < count then
      (tables.streams.write tx streamKey { stream with lastSequence := stream.lastSequence + count }).map fun streams =>
        { tables with
          streams
          reserved := tables.reserved.set tx
            (streamKey, ⟨stream.lastSequence + 1, stream.lastSequence + count, stream.relayShardID⟩) }
    else none
  | _, _ => none

/-- Insert records for the range that the transaction has reserved. -/
def insert (records : List (Record Body)) : Tables Body :=
  { tables with
    events := tables.events ++ records.map fun record => { record, owner := some tx }
    reserved := tables.reserved.drop tx }

/-- One row for each reserved sequence. The primary key covers uncommitted rows as well. -/
def insertBatch (drafts : List (Draft Body)) : Option (Tables Body) :=
  match tables.reserved tx with
  | none => none
  | some (streamKey, range) =>
    if range.firstSequence + drafts.length = range.lastSequence + 1 ∧
        (tables.events.map (·.record.outboxID) ++ drafts.map (·.outboxID)).Nodup then
      some (tables.insert tx (records streamKey range.shardID range.firstSequence drafts))
    else none

/-- The records a transaction has inserted, in order. -/
def inserted : List (Record Body) :=
  (tables.events.filter fun row => row.owner = some tx).map (·.record)

/-- What a transaction has written becomes visible. -/
def settle : Tables Body where
  streams := tables.streams.commit tx
  events := tables.events.map fun row => if row.owner = some tx then { row with owner := none } else row
  reserved := tables.reserved
  history := tables.history ++ tables.inserted tx

/-- A writer commits when it has used what it has reserved. -/
def commit : Option (Tables Body) :=
  match tables.reserved tx with
  | some _ => none
  | none => some (tables.settle tx)

def rollback : Tables Body where
  streams := tables.streams.rollback tx
  events := tables.events.filter fun row => row.owner ≠ some tx
  reserved := tables.reserved.drop tx
  history := tables.history

/-- The last committed sequence of a stream. -/
def last : ℕ := (tables.streams.committed streamKey).elim 0 (·.lastSequence)

end Tables

end Cordis.Outbox
