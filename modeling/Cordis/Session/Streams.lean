import Cordis.Session.CallStages

/-! # Streams

The message events of a route and channel form a stream, numbered by their sequences. The part of a
node that its streams see is the watermarks, the calls, and the histories of both; the predicates say
how far a sequence has come. `MarkTracks` relates the mark of a stream to what was
accepted: it is the last accepted sequence until it expires.
-/

namespace Cordis.Session

open List

/-- What a node keeps of its streams. -/
structure StreamView where
  watermarks : WatermarkStore
  calls : Pool ℕ DispatchCall
  started : List (DispatchRoute × EventEnvelope)
  answered : List (DispatchRoute × EventEnvelope)
  listed : List Listing
  accepted : List (WatermarkKey × ℤ × ℤ)

def DispatchNode.streams (node : DispatchNode) : StreamView where
  watermarks := node.watermarks
  calls := node.calls
  started := node.started
  answered := node.answered
  listed := node.listed
  accepted := node.accepted

namespace StreamView

variable (view : StreamView) (key : WatermarkKey) (sequence : ℤ)

/-- A call of the sequence has passed the deduplication check. -/
def Started : Prop := ∃ request ∈ view.started, request.1.mark request.2 = some (key, sequence)

/-- A call of the sequence has been answered by one of the two filters or has passed both. -/
def Answered : Prop := ∃ request ∈ view.answered, request.1.mark request.2 = some (key, sequence)

/-- A call of the sequence is about to check the watermark. -/
def Awaiting : Prop := view.calls.Any fun call => ∃ rest, call.stages = .accept key sequence :: rest

/-- The watermark has let the sequence through. -/
def Accepted : Prop := ∃ time, (key, sequence, time) ∈ view.accepted

/-- A call of the sequence is about to list the sessions it goes to. -/
def Serving : Prop :=
  view.calls.Any fun call => call.route.mark call.event = some (key, sequence) ∧ ∃ gate, call.stages = [.sessions gate]

/-- A call of the sequence has listed the sessions it goes to. -/
def Listed : Prop := ∃ listing ∈ view.listed, listing.route.mark listing.event = some (key, sequence)

/-- The sequence has been delivered: a call of it has been answered, and none is under way to the
watermark. -/
def Delivered : Prop := view.Answered key sequence ∧ ¬ view.Awaiting key sequence

end StreamView

/-- The sequences of a stream that were accepted, with the times, the last one first. -/
def marks (key : WatermarkKey) (accepted : List (WatermarkKey × ℤ × ℤ)) : List (ℤ × ℤ) :=
  (accepted.filter fun entry => decide (entry.1 = key ∧ 0 < entry.2.1)).map Prod.snd

/-- When a mark set at the time expires. -/
def markExpiry (time : ℤ) : ℤ := wrap64 (time + watermarkTTL)

/-- A sequence that is accepted before the last mark has expired is above it. -/
def Increasing (accepted : List (ℤ × ℤ)) : Prop :=
  accepted.IsChain fun later earlier => later.2 < markExpiry earlier.2 → earlier.1 < later.1

/-- Deliveries of the stream are made in order from `first` on: before a sequence is delivered, every
element of the stream between `first` and it has been. Requests that the deduplication store takes for
the same are of the same event. -/
def InOrder (key : WatermarkKey) (first : ℤ) (stream : Set ℤ) (node : DispatchNode) (event : DispatchEvent) : Prop :=
  ∀ route envelope now, event.request = some (route, envelope, now) →
    (∀ other ∈ node.started, other.1.dedupKey other.2 = route.dedupKey envelope →
      other.1.mark other.2 = route.mark envelope) ∧
    ∀ sequence, route.mark envelope = some (key, sequence) → 0 < sequence →
      sequence ∈ stream ∧ ∀ earlier ∈ stream, first ≤ earlier → earlier < sequence →
        node.streams.Delivered key earlier

/-- The mark is the last accepted sequence, or has been swept after it expired. -/
inductive MarkTracks (clock : ℤ) : Option WatermarkEntry → List (ℤ × ℤ) → Prop
  | none : MarkTracks clock none []
  | current {sequence time earlier} :
      MarkTracks clock (some ⟨sequence, markExpiry time⟩) ((sequence, time) :: earlier)
  | swept {sequence time earlier} (expired : markExpiry time ≤ clock) :
      MarkTracks clock none ((sequence, time) :: earlier)

section Marks

variable {key : WatermarkKey} {clock now : ℤ} {accepted : List (WatermarkKey × ℤ × ℤ)} {entry : Option WatermarkEntry}

theorem mem_marks {sequence time : ℤ} :
    (sequence, time) ∈ marks key accepted ↔ (key, sequence, time) ∈ accepted ∧ 0 < sequence := by
  simp only [marks, mem_map, mem_filter, decide_eq_true_eq, Prod.exists, Prod.mk.injEq]
  constructor
  · rintro ⟨_, _, _, ⟨member, rfl, positive⟩, rfl, rfl⟩
    exact ⟨member, positive⟩
  · rintro ⟨member, positive⟩
    exact ⟨key, sequence, time, ⟨member, rfl, positive⟩, rfl, rfl⟩

variable {sequence : ℤ}

theorem marks_cons_of_ne {other : WatermarkKey} (irrelevant : ¬ (other = key ∧ 0 < sequence))
    (time : ℤ) : marks key ((other, sequence, time) :: accepted) = marks key accepted := by
  rw [marks, filter_cons_of_neg (by simpa using irrelevant)]
  rfl

theorem marks_cons (positive : 0 < sequence) (time : ℤ) :
    marks key ((key, sequence, time) :: accepted) = (sequence, time) :: marks key accepted := by
  rw [marks, filter_cons_of_pos (by simpa using positive)]
  rfl

variable {accepted : List (ℤ × ℤ)}

theorem MarkTracks.advance (tracks : MarkTracks clock entry accepted) (order : clock ≤ now) :
    MarkTracks now entry accepted := by
  cases tracks with
  | none => exact .none
  | current => exact .current
  | swept expired => exact .swept (expired.trans order)

/-- The sweep takes a mark away only when it has expired. -/
theorem MarkTracks.cleanup (tracks : MarkTracks now entry accepted) :
    MarkTracks now (entry.filter fun current => decide (now < current.expiresAt)) accepted := by
  cases tracks with
  | none => exact .none
  | @current sequence time =>
    by_cases lasting : now < markExpiry time
    · simpa [Option.filter_some, lasting] using MarkTracks.current
    · simpa [Option.filter_some, lasting] using MarkTracks.swept (not_lt.mp lasting)
  | swept expired => exact .swept expired

/-- An accepted sequence continues the marks. -/
theorem MarkTracks.increasing (tracks : MarkTracks now entry accepted) (increasing : Increasing accepted)
    (above : ∀ current ∈ entry, now < current.expiresAt → current.sequence < sequence) :
    Increasing ((sequence, now) :: accepted) := by
  cases tracks with
  | none => exact List.IsChain.singleton _
  | current => exact isChain_cons_cons.mpr ⟨fun lasting => above _ rfl lasting, increasing⟩
  | swept expired =>
    exact isChain_cons_cons.mpr ⟨fun lasting => absurd lasting (not_lt.mpr expired), increasing⟩

end Marks

end Cordis.Session
