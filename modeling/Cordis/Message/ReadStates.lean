import Cordis.Machine.LockedTable
import Cordis.Machine.Run
import Mathlib.Data.Int.Notation

/-! # Read state of a user in a channel

An acknowledgement raises the row of the read state, or locks it as it is where it stands as high, and
puts what it reads of it afterwards into an event if it has raised it. The lock on the row of the event
stream is left out: without it there are only more runs.
-/

namespace Cordis.Messaging

open Function

structure ReadEvent where
  sequence : ℕ
  lastReadMessageID : ℤ

def ReadEvent.Before (first second : ReadEvent) : Prop :=
  first.sequence < second.sequence ∧ first.lastReadMessageID < second.lastReadMessageID

/-- The statement that a transaction has come to. -/
inductive Ack where
  | acked (advanced : Bool)
  | listed (advanced : Bool) (lastRead : ℤ)
  | enqueued (event : ReadEvent)

/-- The committed rows of the channel, and the transactions of the acknowledgements. -/
structure ReadState where
  messages : List ℤ := []
  row : LockedTable ℕ Unit ℤ := .empty
  sequence : ℕ := 0
  events : List ReadEvent := []
  acks : ℕ → Option Ack := fun _ => none

inductive ReadStateEvent where
  | createMessage (messageID : ℤ)
  | ackMessage (tx : ℕ) (messageID : ℤ)
  | listReadStates (tx : ℕ)
  | enqueue (tx : ℕ)
  | commit (tx : ℕ)
  | rollback (tx : ℕ)

namespace ReadState

def step (state : ReadState) : ReadStateEvent → Option ReadState
  | .createMessage messageID => some { state with messages := messageID :: state.messages }
  | .ackMessage tx messageID =>
    if (state.acks tx).isNone ∧ messageID ∈ state.messages then
      let advanced : Bool := ∀ lastRead ∈ state.row.committed (), lastRead < messageID
      (state.row.write tx () (if advanced then messageID else (state.row.committed ()).getD 0)).map fun row =>
        { state with row, acks := update state.acks tx (some (.acked advanced)) }
    else none
  | .listReadStates tx =>
    match state.acks tx with
    | some (.acked advanced) => some { state with
        acks := update state.acks tx (some (.listed advanced ((state.row.read tx ()).getD 0))) }
    | _ => none
  | .enqueue tx =>
    match state.acks tx with
    | some (.listed true lastRead) => some { state with
        acks := update state.acks tx (some (.enqueued ⟨state.sequence + 1, lastRead⟩)) }
    | _ => none
  | .commit tx =>
    match state.acks tx with
    | some (.listed false _) => some { state with row := state.row.commit tx, acks := update state.acks tx none }
    | some (.enqueued event) => some { state with
        row := state.row.commit tx
        sequence := event.sequence
        events := state.events ++ [event]
        acks := update state.acks tx none }
    | _ => none
  | .rollback tx => (state.acks tx).map fun _ =>
      { state with row := state.row.rollback tx, acks := update state.acks tx none }

/-- The version of the row that a transaction has locked. -/
def Raises (state : ReadState) (tx : ℕ) (advanced : Bool) (value : ℤ) : Prop :=
  state.row.pending () = some (tx, value) ∧
    if advanced then ∀ lastRead ∈ state.row.committed (), lastRead < value else state.row.committed () = some value

def Holds (state : ReadState) (tx : ℕ) : Ack → Prop
  | .acked advanced => ∃ value, state.Raises tx advanced value
  | .listed advanced lastRead => state.Raises tx advanced lastRead
  | .enqueued event => state.Raises tx true event.lastReadMessageID ∧ event.sequence = state.sequence + 1

structure Ordered (state : ReadState) : Prop where
  holds : ∀ tx, ∀ ack ∈ state.acks tx, state.Holds tx ack
  events : state.events.Pairwise ReadEvent.Before
  last : ∀ event ∈ state.events, event.sequence ≤ state.sequence ∧
    ∃ lastRead ∈ state.row.committed (), event.lastReadMessageID ≤ lastRead

/-- A step keeps the row and the stream, or raises the one and adds an event with its value to the other. -/
def Advances (state next : ReadState) : Prop :=
  next.row.committed () = state.row.committed () ∧ next.events = state.events ∨
    ∃ value sequence, (∀ lastRead ∈ state.row.committed (), lastRead < value) ∧
      next.row.committed () = some value ∧ next.events = state.events ++ [⟨sequence, value⟩]

variable {state next : ReadState} {event : ReadStateEvent} {events : List ReadStateEvent} {tx other : ℕ} {ack : Ack}

theorem Holds.locked (holds : state.Holds tx ack) : ∃ value, state.row.pending () = some (tx, value) := by
  cases ack with
  | acked advanced =>
    obtain ⟨value, raises⟩ := holds
    exact ⟨value, raises.1⟩
  | listed advanced lastRead => exact ⟨lastRead, holds.1⟩
  | enqueued event => exact ⟨_, holds.1.1⟩

namespace Ordered

/-- While the row is free for a transaction, no other acknowledgement is under way. -/
theorem idle (ordered : state.Ordered) (free : state.row.Free tx ()) (ne : other ≠ tx) (called : ack ∈ state.acks other) :
    next.Holds other ack := by
  obtain ⟨value, locked⟩ := (ordered.holds other ack called).locked
  exact absurd (free _ locked) ne

/-- Of the acknowledgements only one moves. -/
theorem holds_update {acks : Option Ack} (rest : ∀ other ≠ tx, ∀ ack ∈ state.acks other, next.Holds other ack)
    (mine : ∀ ack ∈ acks, next.Holds tx ack) : ∀ other, ∀ ack ∈ update state.acks tx acks other, next.Holds other ack := by
  intro other ack called
  by_cases same : other = tx
  · subst same
    exact mine ack (by rwa [update_self] at called)
  · exact rest other same ack (by rwa [update_of_ne same] at called)

/-- None is left after the end of one. -/
theorem ended (ordered : state.Ordered) (called : state.acks tx = some ack) :
    ∀ other, ∀ ack ∈ update state.acks tx none other, next.Holds other ack := by
  obtain ⟨value, locked⟩ := (ordered.holds tx ack called).locked
  refine holds_update (fun other ne ack => ordered.idle ?_ ne) nofun
  intro version held
  cases locked.symm.trans held
  rfl

theorem step (ordered : state.Ordered) (stepped : state.step event = some next) :
    next.Ordered ∧ state.Advances next := by
  have ⟨holds, pairwise, last⟩ := ordered
  cases event with simp only [ReadState.step] at stepped
  | createMessage messageID =>
    cases stepped
    exact ⟨⟨holds, pairwise, last⟩, .inl ⟨rfl, rfl⟩⟩
  | ackMessage tx messageID =>
    obtain ⟨_, stepped⟩ := Option.ite_none_right_eq_some.mp stepped
    obtain ⟨row, written, rfl⟩ := Option.map_eq_some_iff.mp stepped
    obtain ⟨free, rfl⟩ := LockedTable.write_eq_some.mp written
    refine ⟨⟨holds_update (fun other ne ack => ordered.idle free ne) ?_, pairwise, last⟩, .inl ⟨rfl, rfl⟩⟩
    rintro _ ⟨⟩
    refine ⟨_, rfl, ?_⟩
    split_ifs with advanced
    · exact of_decide_eq_true advanced
    · simp only [decide_eq_true_eq, not_forall] at advanced
      obtain ⟨lastRead, current, _⟩ := advanced
      rw [Option.mem_def.mp current, Option.getD_some]
  | listReadStates tx =>
    split at stepped <;> cases stepped
    next advanced called =>
    refine ⟨⟨holds_update (fun other _ => holds other) ?_, pairwise, last⟩, .inl ⟨rfl, rfl⟩⟩
    rintro _ ⟨⟩
    obtain ⟨value, raises⟩ := holds tx _ called
    rwa [LockedTable.read_of_pending raises.1]
  | enqueue tx =>
    split at stepped <;> cases stepped
    next lastRead called =>
    refine ⟨⟨holds_update (fun other _ => holds other) ?_, pairwise, last⟩, .inl ⟨rfl, rfl⟩⟩
    rintro _ ⟨⟩
    exact ⟨holds tx _ called, rfl⟩
  | commit tx =>
    split at stepped <;> cases stepped
    next lastRead called =>
      obtain ⟨locked, same⟩ := holds tx _ called
      have kept : (state.row.commit tx).committed () = state.row.committed () :=
        (LockedTable.read_of_pending locked).trans same.symm
      exact ⟨⟨ordered.ended called, pairwise, by simpa only [kept] using last⟩, .inl ⟨kept, rfl⟩⟩
    next event called =>
      obtain ⟨⟨locked, raised⟩, sequence⟩ := holds tx _ called
      have above : (state.row.commit tx).committed () = some event.lastReadMessageID := LockedTable.read_of_pending locked
      have before : ∀ first ∈ state.events, first.Before event := by
        intro first member
        obtain ⟨earlier, lastRead, current, below⟩ := last first member
        exact ⟨by omega, Int.lt_of_le_of_lt below (raised lastRead current)⟩
      refine ⟨⟨ordered.ended called, ?_, ?_⟩, .inr ⟨_, event.sequence, raised, above, rfl⟩⟩
      · exact List.pairwise_append.mpr ⟨pairwise, List.pairwise_singleton .., by simpa using before⟩
      · simp only [List.mem_append, List.mem_singleton]
        rintro first (member | rfl)
        · exact ⟨Nat.le_of_lt (before first member).1, _, above, Int.le_of_lt (before first member).2⟩
        · exact ⟨Nat.le_refl _, _, above, Int.le_refl _⟩
  | rollback tx =>
    obtain ⟨ack, called, rfl⟩ := Option.map_eq_some_iff.mp stepped
    exact ⟨⟨ordered.ended called, pairwise, last⟩, .inl ⟨rfl, rfl⟩⟩

end Ordered

/-- In every run the events rise with their sequences, and every step from its end keeps the row and the
stream or raises the row and adds one event with its value. -/
theorem read_state_stream (run : (Machine.mk step).run {} events = some state) :
    state.events.Pairwise ReadEvent.Before ∧ ∀ event next, state.step event = some next → state.Advances next := by
  have ordered : state.Ordered := Machine.invariant_run (fun _ _ _ ordered stepped => (ordered.step stepped).1) run
    ⟨nofun, .nil, nofun⟩
  exact ⟨ordered.events, fun event next stepped => (ordered.step stepped).2⟩

theorem read_state_stream_two : ∃ state, (Machine.mk step).run {} [.createMessage 5, .createMessage 9, .ackMessage 1 5,
      .listReadStates 1, .enqueue 1, .commit 1, .ackMessage 2 9, .rollback 2, .ackMessage 3 9, .listReadStates 3,
      .enqueue 3, .commit 3, .ackMessage 1 5, .listReadStates 1, .commit 1] = some state ∧
    state.events = [⟨1, 5⟩, ⟨2, 9⟩] ∧ state.events.Pairwise ReadEvent.Before ∧
    ∀ event next, state.step event = some next → state.Advances next :=
  Machine.exists_run rfl fun run => ⟨rfl, read_state_stream run⟩

end ReadState

end Cordis.Messaging
