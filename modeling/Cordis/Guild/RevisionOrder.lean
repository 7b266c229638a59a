import Cordis.Guild.EventStream
import Cordis.Outbox.Sequences
import Mathlib

/-! # Access revisions along a guild's event stream

A transaction reads the access revision for its events when it holds the row of the guild's stream. By
then every transaction that precedes it in the stream has committed, so what it reads is at least what
those have written and bumped, and at least what its own triggers have produced; and until it commits
nobody else adds to the stream. `TxSound` says this of an open transaction, in terms of the stream as it
is, what the transaction has inserted, which streams it has locked, and what it reads of the guilds.
-/

namespace Cordis.Guild

open Outbox (Draft Record Stream Tables inStream)
open List

/-- The revisions that the events after this one in the stream must reach. -/
def EventBody.values (body : EventBody) : List ℕ :=
  body.accessRevision.toList ++ (body.bumps.filter fun bump => bump.1 = body.guildID).map Prod.snd

variable {body : EventBody}

theorem EventBody.mem_values {value : ℕ} : value ∈ body.values ↔
    body.accessRevision = some value ∨ (body.guildID, value) ∈ body.bumps := by
  simp [values]

/-- The later event's revision, if it has one, reaches what the earlier event asks for. -/
def Covers (earlier later : EventBody) : Prop :=
  ∀ revision ∈ later.accessRevision, ∀ value ∈ earlier.values, value ≤ revision

structure Chain (bodies : List EventBody) : Prop where
  pairs : bodies.Pairwise Covers
  own : ∀ body ∈ bodies, Covers body body

def bodies (key : String) (records : List (Record EventBody)) : List EventBody :=
  (inStream key records).map (·.body)

/-- The revision of the row, if there is one, is at least the value. -/
def Reaches (row : Option RevisionRow) (value : ℕ) : Prop := ∃ found ∈ row, value ≤ found.accessRevision

/-- An event has an access revision unless it reports a deletion, and its revisions are ones that the
guild has reached. -/
structure EventBody.Sound (body : EventBody) (reads : ℤ → Option RevisionRow) : Prop where
  revision : body.type ≠ eventTypeGuildDeleted → body.accessRevision.isSome
  reached : ∀ value ∈ body.values, Reaches (reads body.guildID) value

/-- Every group is of the stream of its events' guild. -/
def Keyed (groups : List (String × List GuildEvent)) : Prop :=
  ∀ group ∈ groups, ∀ event ∈ group.2, streamKey event.guildID = group.1

/-- The records a transaction has made for a stream and not inserted yet. -/
def TxPhase.made (phase : TxPhase) (key : String) : List EventBody :=
  match phase with
  | .recording current _ _ made _ => if current = key then made.map (·.body) else []
  | _ => []

/-- What a transaction has to do with the streams: the committed events of each, the rows it has
inserted, the streams it has locked, and the one it has reserved sequences of. -/
structure StreamView where
  past : String → List EventBody
  rows : List (Record EventBody)
  holds : String → Prop
  reserving : Option String

/-- The stream as the transaction will leave it. -/
def StreamView.timeline (view : StreamView) (phase : TxPhase) (key : String) : List EventBody :=
  view.past key ++ bodies key view.rows ++ phase.made key

/-- A revision that was read for a guild covers the stream so far and the transaction's bumps. -/
structure Latest (timeline : List EventBody) (bumps : List (ℤ × ℕ)) (reads : ℤ → Option RevisionRow)
    (guildID : ℤ) (revision : ℕ) : Prop where
  covered : ∀ body ∈ timeline, ∀ value ∈ body.values, value ≤ revision
  own : ∀ value, (guildID, value) ∈ bumps → value ≤ revision
  reached : Reaches (reads guildID) revision

def PhaseSound (view : StreamView) (reads : ℤ → Option RevisionRow) (state : GuildTx) : Prop :=
  match state.phase with
  | .mutating => True
  | .enqueueing groups | .ensured groups => Keyed groups
  | .recording key events revisions made groups =>
      view.holds key ∧ view.reserving = some key ∧ Keyed ((key, events) :: groups) ∧
      (∀ draft ∈ made, streamKey draft.body.guildID = key ∧ draft.body.Sound reads) ∧
      ∀ guildID revision, revisions.lookup guildID = some revision → streamKey guildID = key →
        Latest (view.timeline state.phase key) state.bumps reads guildID revision

structure TxSound (view : StreamView) (reads : ℤ → Option RevisionRow) (state : GuildTx) : Prop where
  bumps : ∀ bump ∈ state.bumps, Reaches (reads bump.1) bump.2
  inserted : ∀ record ∈ view.rows, record.streamKey = streamKey record.body.guildID ∧ record.body.Sound reads
  phase : PhaseSound view reads state
  chain : ∀ key, view.holds key → Chain (view.timeline state.phase key)

theorem streamKey_injective : Function.Injective streamKey := fun _ _ same => Int.repr_inj.mp same

theorem Chain.append {bodies : List EventBody} (chain : Chain bodies)
    (covers : ∀ earlier ∈ bodies, Covers earlier body) (own : Covers body body) : Chain (bodies ++ [body]) where
  pairs := pairwise_append.mpr ⟨chain.pairs, pairwise_singleton .., fun earlier member _ last =>
    mem_singleton.mp last ▸ covers earlier member⟩
  own other member := by
    rcases mem_append.mp member with old | new
    · exact chain.own other old
    · exact mem_singleton.mp new ▸ own

section Groups

theorem keyed_addToGroup {groups : List (String × List GuildEvent)} (event : GuildEvent) (keyed : Keyed groups) :
    Keyed (addToGroup event groups) := by
  induction groups with
  | nil => simp [addToGroup, Keyed]
  | cons group groups ih =>
    obtain ⟨first, rest⟩ := forall_mem_cons.mp keyed
    unfold addToGroup
    split_ifs with same
    · refine forall_mem_cons.mpr ⟨fun member inside => ?_, rest⟩
      rcases mem_append.mp inside with old | new
      · exact first member old
      · exact mem_singleton.mp new ▸ same.symm
    · exact forall_mem_cons.mpr ⟨first, ih rest⟩

theorem keyed_groupByStream (events : List GuildEvent) : Keyed (groupByStream events) := by
  have kept (groups) (keyed : Keyed groups) :
      Keyed (events.foldl (fun groups event => addToGroup event groups) groups) := by
    induction events generalizing groups with
    | nil => exact keyed
    | cons event events ih => exact ih _ (keyed_addToGroup event keyed)
  exact kept [] (by simp [Keyed])

end Groups

section Views

variable {view next : StreamView} {reads reads' : ℤ → Option RevisionRow} {state : GuildTx}

theorem EventBody.Sound.mono (sound : body.Sound reads)
    (rises : ∀ guildID value, Reaches (reads guildID) value → Reaches (reads' guildID) value) : body.Sound reads' where
  revision := sound.revision
  reached value member := rises _ value (sound.reached value member)

/-- What the others do leaves a transaction sound: the streams it has locked stay as they are, and what
it reads only rises. -/
theorem TxSound.mono (sound : TxSound view reads state) (past : ∀ key, view.holds key → next.past key = view.past key)
    (rows : next.rows = view.rows) (locks : ∀ key, next.holds key ↔ view.holds key)
    (reserving : next.reserving = view.reserving)
    (rises : ∀ guildID value, Reaches (reads guildID) value → Reaches (reads' guildID) value) :
    TxSound next reads' state := by
  have same (key) (held : view.holds key) : next.timeline state.phase key = view.timeline state.phase key := by
    simp only [StreamView.timeline, past key held, rows]
  refine ⟨fun bump member => rises _ _ (sound.bumps bump member), fun record member => ?_, ?_, fun key held => ?_⟩
  · obtain ⟨stream, body⟩ := sound.inserted record (rows ▸ member)
    exact ⟨stream, body.mono rises⟩
  · have phase := sound.phase
    unfold PhaseSound at phase ⊢
    split at phase
    · trivial
    · exact phase
    · exact phase
    · next key events revisions made groups current =>
      obtain ⟨held, reserved, keyed, drafts, cached⟩ := phase
      refine ⟨(locks key).mpr held, reserving.trans reserved, keyed, fun draft member => ?_, ?_⟩
      · exact ⟨(drafts draft member).1, (drafts draft member).2.mono rises⟩
      · intro guildID revision found stream
        have latest := cached guildID revision found stream
        exact ⟨(same key held).symm ▸ latest.covered, latest.own, rises _ _ latest.reached⟩
  · rw [same key ((locks key).mp held)]
    exact sound.chain key ((locks key).mp held)

/-- A transaction that has done nothing yet. -/
theorem txSound_new (rows : view.rows = []) (unlocked : ∀ key, ¬ view.holds key) : TxSound view reads {} where
  bumps _ member := by cases member
  inserted _ member := by simp [rows] at member
  phase := trivial
  chain key held := absurd held (unlocked key)

variable {key : String} {event : GuildEvent} {events : List GuildEvent} {revisions : List (ℤ × ℕ)}
  {made : List (Draft EventBody)} {groups : List (String × List GuildEvent)} {bumps : List (ℤ × ℕ)}

variable (event revisions)

theorem timeline_record (draft : Draft EventBody) (cache : List (ℤ × ℕ)) :
    view.timeline (.recording key events cache (made ++ [draft]) groups) key =
      view.timeline (.recording key (event :: events) revisions made groups) key ++ [draft.body] := by
  simp [StreamView.timeline, TxPhase.made]

variable {event revisions}

/-- An event is recorded with no revision, or with one that covers the stream so far; only in the second
case the revisions read so far may change, by that one. -/
theorem TxSound.record {cache : List (ℤ × ℕ)} {accessRevision : Option ℕ}
    (sound : TxSound view reads ⟨.recording key (event :: events) revisions made groups, bumps⟩)
    (named : event.type ≠ eventTypeGuildDeleted → accessRevision.isSome)
    (latest : ∀ revision ∈ accessRevision,
      Latest (view.timeline (.recording key (event :: events) revisions made groups) key) bumps reads event.guildID
        revision)
    (cached : ∀ revision, cache.lookup event.guildID = some revision →
      accessRevision = some revision ∨ accessRevision = none ∧ cache = revisions) :
    TxSound view reads
      ⟨.recording key events cache (made ++ [event.draft accessRevision bumps]) groups, bumps⟩ := by
  obtain ⟨held, reserved, keyed, drafts, before⟩ := sound.phase
  obtain ⟨first, rest⟩ := forall_mem_cons.mp keyed
  have stream : streamKey event.guildID = key := first event mem_cons_self
  have body : (event.draft accessRevision bumps).body.Sound reads := by
    refine ⟨named, fun value member => ?_⟩
    rcases EventBody.mem_values.mp member with revision | bumped
    · exact (latest value revision).reached
    · exact sound.bumps _ bumped
  have own (revision) (found : revision ∈ accessRevision) :
      ∀ value ∈ (event.draft accessRevision bumps).body.values, value ≤ revision := by
    intro value member
    rcases EventBody.mem_values.mp member with same | bumped
    · cases Option.some.inj (found.symm.trans same)
      exact le_rfl
    · exact (latest revision found).own value bumped
  refine ⟨sound.bumps, sound.inserted, ⟨held, reserved, ?_, ?_, ?_⟩, fun other locked => ?_⟩
  · exact forall_mem_cons.mpr ⟨fun later member => first later (mem_cons_of_mem _ member), rest⟩
  · intro draft member
    rcases mem_append.mp member with old | new
    · exact drafts draft old
    · exact mem_singleton.mp new ▸ ⟨stream, body⟩
  · intro guildID revision found same
    obtain rfl := streamKey_injective (same.trans stream.symm)
    rw [timeline_record event revisions]
    rcases cached revision found with given | ⟨absent, rfl⟩
    · have latest := latest revision given
      refine ⟨fun other member => ?_, latest.own, latest.reached⟩
      rcases mem_append.mp member with old | new
      · exact latest.covered other old
      · exact mem_singleton.mp new ▸ own revision given
    · have latest := before _ revision found same
      refine ⟨fun other member => ?_, latest.own, latest.reached⟩
      rcases mem_append.mp member with old | new
      · exact latest.covered other old
      · obtain rfl := mem_singleton.mp new
        intro value member
        rcases EventBody.mem_values.mp member with impossible | bumped
        · cases absent.symm.trans impossible
        · exact latest.own value bumped
  · have chain := sound.chain other locked
    by_cases same : key = other
    · subst same
      rw [timeline_record event revisions]
      exact chain.append (fun earlier member revision found => (latest revision found).covered earlier member) own
    · simpa [StreamView.timeline, TxPhase.made, same] using chain

end Views

end Cordis.Guild
