import Cordis.Machine.Run
import Cordis.Outbox.Tables

/-! # The event stream of a guild

A guild transaction first changes rows of the guild's tables, and row triggers raise the guild's access
revision for every change of a member, a role, a role assignment, a channel, an overwrite or the owner.
Then `enqueueEvents` reserves sequences in the event stream of each guild it has events of, reads the
access revision again and writes it into the events. The isolation level is READ COMMITTED: every
statement reads what is committed when it starts, with the changes of its own transaction.

The rows themselves matter here only through the triggers, so a change is one event of the machine for
each row. The revisions that its triggers produced are kept with a transaction and its records, for
stating properties.
-/

namespace Cordis.Guild

open Outbox (Draft Tables)

/-- The columns of a guild's row that the stream depends on. -/
structure RevisionRow where
  accessRevision : ℕ
  deleted : Bool := false
deriving DecidableEq, Repr

/-- A guild event as a handler makes it. -/
structure GuildEvent where
  outboxID : ℤ
  createdAt : ℤ := 0
  type : String
  guildID : ℤ
deriving DecidableEq, Repr

def eventTypeGuildDeleted : String := "guild.deleted"

def streamKey (guildID : ℤ) : String := toString guildID

/-- What is stored of an event, and the revisions (by guild) that the triggers of its transaction
produced. -/
structure EventBody where
  type : String
  guildID : ℤ
  accessRevision : Option ℕ
  bumps : List (ℤ × ℕ)
deriving DecidableEq, Repr

def GuildEvent.draft (event : GuildEvent) (accessRevision : Option ℕ) (bumps : List (ℤ × ℕ)) : Draft EventBody where
  outboxID := event.outboxID
  createdAt := event.createdAt
  body := { type := event.type, guildID := event.guildID, accessRevision, bumps }

/-- One more event in the groups by stream, which stand in the order of their first events. -/
def addToGroup (event : GuildEvent) : List (String × List GuildEvent) → List (String × List GuildEvent)
  | [] => [(streamKey event.guildID, [event])]
  | (key, events) :: groups =>
      if key = streamKey event.guildID then (key, events ++ [event]) :: groups
      else (key, events) :: addToGroup event groups

def groupByStream (events : List GuildEvent) : List (String × List GuildEvent) :=
  events.foldl (fun groups event => addToGroup event groups) []

inductive TxPhase where
  | mutating
  /-- In the loop over the streams. -/
  | enqueueing (groups : List (String × List GuildEvent))
  /-- The row of the first stream exists. -/
  | ensured (groups : List (String × List GuildEvent))
  /-- In `insertGuildOutbox`: the events still to be recorded, the revisions read so far, and the
  records made. -/
  | recording (key : String) (events : List GuildEvent) (revisions : List (ℤ × ℕ)) (made : List (Draft EventBody))
      (groups : List (String × List GuildEvent))

structure GuildTx where
  phase : TxPhase := .mutating
  bumps : List (ℤ × ℕ) := []

structure GuildStore where
  guilds : LockedTable ℕ ℤ RevisionRow := .empty
  outbox : Tables EventBody := {}
  txs : Pool ℕ GuildTx := Pool.empty

inductive StreamEvent where
  | begin (tx : ℕ)
  | createGuild (tx : ℕ) (guildID : ℤ)
  /-- A change of the guild's row that raises no revision. -/
  | updateGuild (tx : ℕ) (guildID : ℤ)
  /-- A change of a row, or of the owner, whose trigger raises the access revision. -/
  | change (tx : ℕ) (guildID : ℤ)
  | deleteGuild (tx : ℕ) (guildID : ℤ)
  | enqueueEvents (tx : ℕ) (events : List GuildEvent)
  | ensureStream (tx : ℕ) (shardCount : ℕ)
  | reserveSequences (tx : ℕ)
  | record (tx : ℕ)
  | insertOutbox (tx : ℕ)
  | commit (tx : ℕ)
  | rollback (tx : ℕ)

namespace GuildStore

variable (store : GuildStore) (tx : ℕ) (state : GuildTx)

def setTx : GuildStore := { store with txs := store.txs.set tx state }

/-- Write the row of a guild, possibly with a bump of its revision. -/
def writeGuild (guildID : ℤ) (row : RevisionRow) (bumps : List (ℤ × ℕ)) : Option GuildStore :=
  (store.guilds.write tx guildID row).map fun guilds => { store with guilds }.setTx tx { state with bumps }

/-- `bump_guild_access_revision`; a guild without a row has no revision. -/
def bump (guildID : ℤ) (deleted : RevisionRow → Bool) : Option GuildStore :=
  match store.guilds.read tx guildID with
  | none => some store
  | some row => store.writeGuild tx state guildID ⟨row.accessRevision + 1, deleted row⟩
      ((guildID, row.accessRevision + 1) :: state.bumps)

/-- The access revision for an event: none for a deletion, otherwise the one read before for the guild,
or that of the live guild now. -/
def revisionFor (revisions : List (ℤ × ℕ)) (event : GuildEvent) : Option (Option ℕ × List (ℤ × ℕ)) :=
  if event.type = eventTypeGuildDeleted then some (none, revisions)
  else
    match revisions.lookup event.guildID with
    | some revision => some (some revision, revisions)
    | none =>
      match store.guilds.read tx event.guildID with
      | some row => if row.deleted then none
          else some (some row.accessRevision, (event.guildID, row.accessRevision) :: revisions)
      | none => none

/-- The statements of a transaction's mutations. -/
def stepMutation : StreamEvent → Option GuildStore
  | .createGuild _ guildID =>
    match store.guilds.read tx guildID with
    | none => store.writeGuild tx state guildID { accessRevision := 1 } state.bumps
    | some _ => none
  | .updateGuild _ guildID =>
    (store.guilds.read tx guildID).bind fun row => store.writeGuild tx state guildID row state.bumps
  | .change _ guildID => store.bump tx state guildID RevisionRow.deleted
  | .deleteGuild _ guildID =>
    match store.guilds.read tx guildID with
    | some row => if row.deleted then none else store.bump tx state guildID fun _ => true
    | none => none
  | .enqueueEvents _ events => some (store.setTx tx { state with phase := .enqueueing (groupByStream events) })
  | _ => none

/-- The statements of `enqueueEvents`. -/
def stepEnqueue : StreamEvent → Option GuildStore
  | .ensureStream _ shardCount =>
    match state.phase with
    | .enqueueing ((key, events) :: groups) =>
      (Outbox.shardID key shardCount).bind fun shard => (store.outbox.ensureStream tx key shard).map fun outbox =>
        { store with outbox }.setTx tx { state with phase := .ensured ((key, events) :: groups) }
    | _ => none
  | .reserveSequences _ =>
    match state.phase with
    | .ensured ((key, events) :: groups) =>
      (store.outbox.reserveSequences tx key events.length).map fun outbox =>
        { store with outbox }.setTx tx { state with phase := .recording key events [] [] groups }
    | _ => none
  | .record _ =>
    match state.phase with
    | .recording key (event :: events) revisions made groups =>
      (store.revisionFor tx revisions event).map fun (accessRevision, revisions) =>
        store.setTx tx { state with
          phase := .recording key events revisions (made ++ [event.draft accessRevision state.bumps]) groups }
    | _ => none
  | .insertOutbox _ =>
    match state.phase with
    | .recording _ [] _ made groups =>
      (store.outbox.insertBatch tx made).map fun outbox =>
        { store with outbox }.setTx tx { state with phase := .enqueueing groups }
    | _ => none
  | _ => none

def step (event : StreamEvent) : Option GuildStore :=
  match event with
  | .begin tx => if (store.txs tx).isNone then some (store.setTx tx {}) else none
  | .createGuild tx _ | .updateGuild tx _ | .change tx _ | .deleteGuild tx _ | .enqueueEvents tx _ =>
    match store.txs tx with
    | some { phase := .mutating, bumps } => store.stepMutation tx { phase := .mutating, bumps } event
    | _ => none
  | .ensureStream tx _ | .reserveSequences tx | .record tx | .insertOutbox tx =>
    (store.txs tx).bind fun state => store.stepEnqueue tx state event
  | .commit tx =>
    match store.txs tx with
    | some { phase := .mutating, .. } | some { phase := .enqueueing [], .. } =>
      (store.outbox.commit tx).map fun outbox =>
        { guilds := store.guilds.commit tx, outbox, txs := store.txs.drop tx }
    | _ => none
  | .rollback tx => some
      { guilds := store.guilds.rollback tx, outbox := store.outbox.rollback tx, txs := store.txs.drop tx }

end GuildStore

def guildStreamMachine : Machine GuildStore StreamEvent where
  step := GuildStore.step

end Cordis.Guild
