import Cordis.Session.Recorded
import Cordis.Session.Streams

/-! # Nothing is lost to the watermark

Before an event of a stream goes to the sessions it passes the deduplication store and the watermark,
and both may answer for it. If deliveries start at some sequence and go forward in order, with any
rewinds, the watermark takes away only what it has let through before.

The invariant says which sequences are settled. Everything that has passed the deduplication check
has been accepted or has its watermark check ahead, and below whatever was accepted nothing is
missing.
-/

namespace Cordis.Session

open WatermarkStore DispatchNode Pool List

/-- The first stage of a running call may be its watermark check; no later one is. -/
def DispatchCall.Shaped (call : DispatchCall) : Prop :=
  (∃ key sequence gate, call.route.mark call.event = some (key, sequence) ∧
    call.stages = [.accept key sequence, .sessions gate]) ∨
  ∀ stage ∈ call.stages, stage.mark = none

/-- What is known of a stream: nothing that has come in is lost, and nothing below what was accepted
is missing. -/
structure Lossless (key : WatermarkKey) (first : ℤ) (stream : Set ℤ) (clock : ℤ) (view : StreamView) : Prop where
  shaped : view.calls.All fun _ call => call.Shaped
  begun : ∀ sequence, view.Answered key sequence → view.Started key sequence
  settled : ∀ sequence ∈ stream, first ≤ sequence → view.Started key sequence →
    view.Accepted key sequence ∨ view.Awaiting key sequence
  below : ∀ sequence, 0 < sequence → view.Accepted key sequence ∨ view.Awaiting key sequence →
    sequence ∈ stream ∧ ∀ earlier ∈ stream, first ≤ earlier → earlier < sequence → view.Accepted key earlier
  tracks : MarkTracks clock (view.watermarks.entry key) (marks key view.accepted)
  increasing : Increasing (marks key view.accepted)
  served : ∀ sequence, 0 < sequence → view.Accepted key sequence →
    view.Listed key sequence ∨ view.Serving key sequence

section Steps

variable {key : WatermarkKey} {first : ℤ} {stream : Set ℤ} {clock now : ℤ} {view : StreamView}

variable {id : ℕ} {call moved : DispatchCall} {stage : Stage} {rest : List Stage} {sequence : ℤ}

theorem Lossless.advance (inv : Lossless key first stream clock view) (order : clock ≤ now) :
    Lossless key first stream now view :=
  { inv with tracks := inv.tracks.advance order }

/-- A call that is written without a watermark check ahead waits for none. -/
theorem awaiting_of_set (unmarked : ∀ stage ∈ moved.stages, stage.mark = none)
    (awaiting : ({ view with calls := view.calls.set id moved } : StreamView).Awaiting key sequence) :
    view.Awaiting key sequence := by
  obtain ⟨other, found, running, rest, stages⟩ := awaiting
  rcases of_set running with ⟨_, rfl⟩ | ⟨_, before⟩
  · cases unmarked _ (stages ▸ mem_cons_self)
  · exact ⟨other, found, before, rest, stages⟩

/-- Writing a call that waits for another check, or for none, leaves a sequence waiting. -/
theorem StreamView.Awaiting.set (awaiting : view.Awaiting key sequence) (current : view.calls id = some call)
    (other : ∀ rest, call.stages ≠ .accept key sequence :: rest) (moved : DispatchCall) :
    ({ view with calls := view.calls.set id moved } : StreamView).Awaiting key sequence := by
  exact Any.move awaiting current fun ⟨rest, waits⟩ => absurd waits (other rest)

/-- Writing a call that is not about to list its sessions leaves the call that serves a sequence. -/
theorem StreamView.Serving.set (serving : view.Serving key sequence) (current : view.calls id = some call)
    (other : ∀ gate, call.stages ≠ [.sessions gate]) (moved : DispatchCall) :
    ({ view with calls := view.calls.set id moved } : StreamView).Serving key sequence := by
  exact Any.move serving current fun ⟨_, gate, serves⟩ => absurd serves (other gate)

section

variable (inv : Lossless key first stream now view)

include inv

/-- A stage that neither checks the watermark nor lists the sessions leaves the stream as it is. -/
theorem Lossless.move (current : view.calls id = some call) (stages : call.stages = stage :: rest)
    (quiet : stage.mark = none) (unlisted : stage.isSessions = false)
    (unmarked : ∀ stage ∈ moved.stages, stage.mark = none) :
    Lossless key first stream now { view with calls := view.calls.set id moved } where
  shaped := inv.shaped.set (.inr unmarked)
  begun := inv.begun
  settled := by
    intro sequence element later started
    refine (inv.settled sequence element later started).imp_right fun awaiting => ?_
    refine awaiting.set current (fun _ waits => ?_) moved
    cases stages.symm.trans waits
    cases quiet
  below := by
    intro sequence positive known
    exact inv.below sequence positive (known.imp_right (awaiting_of_set unmarked))
  tracks := inv.tracks
  increasing := inv.increasing
  served := by
    intro sequence positive accepted
    refine (inv.served sequence positive accepted).imp_right fun serving => ?_
    refine serving.set current (fun _ serves => ?_) moved
    cases stages.symm.trans serves
    cases unlisted

/-- Listing the sessions serves the sequence of the call. -/
theorem Lossless.list (current : view.calls id = some call) {gate : Gate}
    (stages : call.stages = .sessions gate :: rest) (unmarked : ∀ stage ∈ moved.stages, stage.mark = none)
    {listing : Listing} (route : listing.route = call.route) (event : listing.event = call.event) :
    Lossless key first stream now
      { view with listed := listing :: view.listed, calls := view.calls.set id moved } where
  shaped := inv.shaped.set (.inr unmarked)
  begun := inv.begun
  settled := by
    intro sequence element later started
    refine (inv.settled sequence element later started).imp_right fun awaiting => ?_
    exact awaiting.set current (fun _ waits => by cases stages.symm.trans waits) moved
  below := by
    intro sequence positive known
    exact inv.below sequence positive (known.imp_right (awaiting_of_set unmarked))
  tracks := inv.tracks
  increasing := inv.increasing
  served := by
    intro sequence positive accepted
    rcases inv.served sequence positive accepted with ⟨old, member, marked⟩ | serving
    · exact .inl ⟨old, mem_cons_of_mem _ member, marked⟩
    · rcases Any.set_or serving current moved with kept | ⟨marked, _⟩
      · exact .inr kept
      · refine .inl ⟨listing, mem_cons_self, ?_⟩
        rw [route, event]
        exact marked

/-- A call that has nothing left to do ends. -/
theorem Lossless.finish (current : view.calls id = some call) (stages : call.stages = []) :
    Lossless key first stream now { view with calls := view.calls.drop id } where
  shaped := inv.shaped.drop id
  begun := inv.begun
  settled := by
    intro sequence element later started
    refine (inv.settled sequence element later started).imp_right fun awaiting => ?_
    rcases Any.drop_or awaiting current with kept | ⟨_, waits⟩
    · exact kept
    · cases stages.symm.trans waits
  below := by
    intro sequence positive known
    refine inv.below sequence positive (known.imp_right ?_)
    rintro ⟨other, found, running, waits⟩
    exact ⟨other, found, of_drop running, waits⟩
  tracks := inv.tracks
  increasing := inv.increasing
  served := by
    intro sequence positive accepted
    refine (inv.served sequence positive accepted).imp_right fun serving => ?_
    rcases Any.drop_or serving current with kept | ⟨_, _, serves⟩
    · exact kept
    · cases stages.symm.trans serves

variable {envelope : EventEnvelope} {route : DispatchRoute}

/-- A request that passes the deduplication check starts a call. -/
theorem Lossless.start (free : view.calls id = none)
    {number revision : ℕ} (ordered : ∀ sequence, route.mark envelope = some (key, sequence) → 0 < sequence →
      sequence ∈ stream ∧ ∀ earlier ∈ stream, first ≤ earlier → earlier < sequence → view.Delivered key earlier) :
    Lossless key first stream now
      { view with
        started := (route, envelope) :: view.started
        calls := view.calls.set id
          { route, event := envelope, revision, stages := route.stages envelope, number } } where
  shaped := by
    refine inv.shaped.set ?_
    rcases (stages_shape route envelope).1 with ⟨key, sequence, gate, stages⟩ | unmarked
    · exact .inl ⟨key, sequence, gate, mark_of_stages stages, stages⟩
    · exact .inr unmarked
  begun := by
    intro sequence answered
    obtain ⟨request, member, marked⟩ := inv.begun sequence answered
    exact ⟨request, mem_cons_of_mem _ member, marked⟩
  settled := by
    rintro sequence element later ⟨request, member, marked⟩
    rcases mem_cons.mp member with rfl | earlier
    · obtain ⟨gate, stages⟩ := stages_of_mark marked
      exact .inr (any_set_self _ _ ⟨_, stages⟩)
    · refine (inv.settled sequence element later ⟨request, earlier, marked⟩).imp_right fun awaiting => ?_
      exact Any.set_of_none awaiting free _
  below := by
    rintro sequence positive (accepted | ⟨other, found, running, rest, stages⟩)
    · exact inv.below sequence positive (.inl accepted)
    · rcases of_set running with ⟨_, rfl⟩ | ⟨_, current⟩
      · obtain ⟨element, before⟩ := ordered sequence (mark_of_stages stages) positive
        refine ⟨element, fun earlier member from_ less => ?_⟩
        obtain ⟨answered, free⟩ := before earlier member from_ less
        exact (inv.settled earlier member from_ (inv.begun earlier answered)).resolve_right free
      · exact inv.below sequence positive (.inr ⟨other, found, current, rest, stages⟩)
  tracks := inv.tracks
  increasing := inv.increasing
  served := by
    intro sequence positive accepted
    exact (inv.served sequence positive accepted).imp_right fun serving => Any.set_of_none serving free _

/-- A request that is answered has been started. -/
theorem Lossless.answer (begun : ∃ request ∈ view.started, request.1.mark request.2 = route.mark envelope) :
    Lossless key first stream now { view with answered := (route, envelope) :: view.answered } := by
  refine { inv with begun := ?_ }
  rintro sequence ⟨request, member, marked⟩
  rcases mem_cons.mp member with rfl | earlier
  · obtain ⟨same, started, mark⟩ := begun
    exact ⟨same, started, mark.trans marked⟩
  · exact inv.begun sequence ⟨request, earlier, marked⟩

/-- The mark that rejects a sequence is an accepted one, so the sequence was accepted too. -/
theorem Lossless.accepted_of_rejected (element : sequence ∈ stream) (later : first ≤ sequence)
    (positive : 0 < sequence) {time : ℤ} (rejected : (view.watermarks.accept time key sequence).2 = false) :
    view.Accepted key sequence := by
  obtain ⟨mark, held, bound⟩ := (accept_eq_false positive).mp rejected
  have highest : view.Accepted key mark ∧ 0 < mark := by
    have tracks := inv.tracks
    unfold WatermarkStore.mark at held
    generalize entries : view.watermarks.entry key = entry at held tracks
    generalize earlier : marks key view.accepted = accepted at tracks
    cases tracks with
    | @current found set earlier =>
      obtain ⟨current, kept, rfl⟩ := Option.map_eq_some_iff.mp held
      obtain ⟨same, _⟩ := Option.filter_eq_some_iff.mp kept
      cases same
      have member : (found, set) ∈ marks key view.accepted := by simp [*]
      obtain ⟨accepted, positive⟩ := mem_marks.mp member
      exact ⟨⟨set, accepted⟩, positive⟩
    | _ => cases held
  rcases bound.lt_or_eq with less | rfl
  · exact (inv.below mark highest.2 (.inl highest.1)).2 sequence element later less
  · exact highest.1

end

variable {checked : WatermarkKey} {gate : Gate}

/-- The watermark lets the sequence of a call through. -/
theorem Lossless.accept (inv : Lossless key first stream now view) (current : view.calls id = some call)
    (begun : (call.route, call.event) ∈ view.started) (marked : call.route.mark call.event = some (checked, sequence))
    (stages : call.stages = [.accept checked sequence, .sessions gate])
    (passed : (view.watermarks.accept now checked sequence).2 = true) :
    Lossless key first stream now
      { view with
        watermarks := (view.watermarks.accept now checked sequence).1
        answered := (call.route, call.event) :: view.answered
        accepted := (checked, sequence, now) :: view.accepted
        calls := view.calls.set id { call with stages := [.sessions gate] } } where
  shaped := by
    refine inv.shaped.set (.inr fun stage member => ?_)
    cases mem_singleton.mp member
    rfl
  begun := (inv.answer ⟨_, begun, rfl⟩).begun
  settled := by
    intro other element later started
    rcases inv.settled other element later started with ⟨time, accepted⟩ | awaiting
    · exact .inl ⟨time, mem_cons_of_mem _ accepted⟩
    · rcases Any.set_or awaiting current { call with stages := [.sessions gate] } with kept | ⟨_, waits⟩
      · exact .inr kept
      · cases stages.symm.trans waits
        exact .inl ⟨now, mem_cons_self⟩
  below := by
    intro other positive known
    have before : view.Accepted key other ∨ view.Awaiting key other := by
      rcases known with ⟨time, member⟩ | ⟨running, found, runs, rest, waits⟩
      · rcases mem_cons.mp member with same | earlier
        · cases same
          exact .inr ⟨id, call, current, _, stages⟩
        · exact .inl ⟨time, earlier⟩
      · rcases of_set runs with ⟨_, rfl⟩ | ⟨_, before⟩
        · cases waits
        · exact .inr ⟨running, found, before, rest, waits⟩
    obtain ⟨element, below⟩ := inv.below other positive before
    refine ⟨element, fun earlier member from_ less => ?_⟩
    obtain ⟨time, accepted⟩ := below earlier member from_ less
    exact ⟨time, mem_cons_of_mem _ accepted⟩
  tracks := by
    by_cases same : checked = key ∧ 0 < sequence
    · obtain ⟨rfl, positive⟩ := same
      rw [marks_cons positive, entry_accept positive passed]
      exact .current
    · rw [marks_cons_of_ne same]
      by_cases other : key = checked
      · have legacy : sequence ≤ 0 := not_lt.mp fun positive => same ⟨other.symm, positive⟩
        rw [accept_of_nonpositive legacy]
        exact inv.tracks
      · rw [entry_accept_of_ne other]
        exact inv.tracks
  increasing := by
    by_cases same : checked = key ∧ 0 < sequence
    · obtain ⟨rfl, positive⟩ := same
      rw [marks_cons positive]
      exact inv.tracks.increasing inv.increasing fun current held lasting =>
        lt_of_accepted positive passed held lasting
    · rw [marks_cons_of_ne same]
      exact inv.increasing
  served := by
    rintro other positive ⟨time, member⟩
    rcases mem_cons.mp member with same | earlier
    · cases same
      exact .inr (any_set_self _ _ ⟨marked, gate, rfl⟩)
    · refine (inv.served other positive ⟨time, earlier⟩).imp_right fun serving => ?_
      exact serving.set current (fun _ serves => by cases stages.symm.trans serves) _

/-- The watermark rejects the sequence of a call, and the call is over. -/
theorem Lossless.reject (inv : Lossless key first stream now view) (positive : ∀ element ∈ stream, 0 < element)
    (current : view.calls id = some call) (begun : (call.route, call.event) ∈ view.started)
    (stages : call.stages = [.accept checked sequence, .sessions gate]) (rejected : (view.watermarks.accept now checked sequence).2 = false) :
    Lossless key first stream now
      { view with
        watermarks := (view.watermarks.accept now checked sequence).1
        answered := (call.route, call.event) :: view.answered
        calls := view.calls.set id { call with stages := [] } } where
  shaped := inv.shaped.set (.inr (forall_mem_nil _))
  begun := (inv.answer ⟨_, begun, rfl⟩).begun
  settled := by
    intro other element later started
    rcases inv.settled other element later started with accepted | awaiting
    · exact .inl accepted
    · rcases Any.set_or awaiting current { call with stages := [] } with kept | ⟨_, waits⟩
      · exact .inr kept
      · cases stages.symm.trans waits
        exact .inl (inv.accepted_of_rejected element later (positive _ element) rejected)
  below := by
    intro other positive known
    exact inv.below other positive (known.imp_right (awaiting_of_set (forall_mem_nil _)))
  tracks := by
    rw [accept_rejected rejected]
    exact inv.tracks
  increasing := inv.increasing
  served := by
    intro other positive accepted
    refine (inv.served other positive accepted).imp_right fun serving => ?_
    exact serving.set current (fun _ serves => by cases stages.symm.trans serves) _

variable {cfg : NodeConfig} {node next : DispatchNode} {event : DispatchEvent}

/-- What is left of the stages makes no watermark check. -/
theorem DispatchCall.Shaped.tail (shaped : call.Shaped) (stages : call.stages = stage :: rest) :
    ∀ later ∈ rest, later.mark = none := by
  rcases shaped with ⟨_, _, gate, _, whole⟩ | unmarked
  · cases stages.symm.trans whole
    intro later member
    cases mem_singleton.mp member
    rfl
  · exact fun later member => unmarked later (stages ▸ mem_cons_of_mem _ member)

variable (inv : Lossless key first stream now node.streams)

include inv

variable (recorded : Recorded node.dedup node.calls node.started)

include recorded

theorem Lossless.request (free : node.calls id = none) {route : DispatchRoute} {envelope : EventEnvelope}
    {revision : ℕ} (ordered : InOrder key first stream node (.dispatch id route envelope revision now)) :
    Lossless key first stream now (node.request id route envelope revision now).streams := by
  obtain ⟨identified, ordered⟩ := ordered route envelope now rfl
  by_cases new : node.IsNew route envelope now
  · rw [request_of_isNew new]
    exact inv.start free ordered
  · rw [request_of_not_isNew new]
    obtain ⟨request, member, same⟩ := recorded.started_of_known new
    exact inv.answer ⟨request, member, identified request member same⟩

theorem Lossless.runStage (positive : ∀ element ∈ stream, 0 < element) (current : node.calls id = some call)
    (stages : call.stages = stage :: rest) (ran : node.runStage id call rest now stage = some next) :
    Lossless key first stream now next.streams := by
  have shaped := inv.shaped id call current
  have unmarked := shaped.tail stages
  cases stage with
  | accept checked sequence =>
    have begun := recorded.running id call current
    obtain ⟨_, _, gate, marked, whole⟩ | bare := shaped
    · cases stages.symm.trans whole
      simp only [runStage] at ran
      split_ifs at ran with passed
      · cases ran
        exact inv.accept current begun marked whole passed
      · cases ran
        exact inv.reject positive current begun whole (Bool.eq_false_iff.mpr passed)
    · cases bare _ (stages ▸ mem_cons_self)
  | deliver gate jobs queue =>
    obtain ⟨rfl, rfl⟩ := runStage_deliver ran
    cases ran
    exact inv.move current stages rfl rfl unmarked
  | forget | join | index | invalidate | view | leave | unindex | clearRemoved | dropIndex | clear =>
    cases ran
    exact inv.move current stages rfl rfl unmarked
  | _ => cases ran

theorem Lossless.transition (positive : ∀ element ∈ stream, 0 < element)
    (ordered : InOrder key first stream node event) (timed : ∀ time ∈ event.time, time = now)
    (transition : node.Transition cfg event next) : Lossless key first stream now next.streams := by
  cases transition with
  | dispatch free =>
    cases timed _ rfl
    exact inv.request recorded free ordered
  | @list id order call stage rest set current stages lists all =>
    have unmarked : ∀ later ∈ call.expand node.reg order stage ++ rest, later.mark = none := by
      intro later member
      rcases mem_append.mp member with expanded | behind
      · exact (expand_stage expanded).1
      · exact (inv.shaped id call current).tail stages later behind
    cases stage with
    | sessions => exact inv.list current stages unmarked rfl rfl
    | attachGuildUser | invalidateGuild | viewers | detachGuildUser | detachGuild =>
      exact inv.move current stages rfl rfl unmarked
    | _ => cases lists
  | run current stages ran =>
    cases timed _ rfl
    exact inv.runStage recorded positive current stages ran
  | @check id userID visibility now call gate jobs queue rest refs _ current stages job checked =>
    obtain ⟨users, dedup, withheld, offers, rfl, _⟩ := checkUser_eq_some checked
    exact inv.move current stages rfl rfl
      (forall_mem_cons.mpr ⟨rfl, (inv.shaped id call current).tail stages⟩)
  | @offer id ref moment call gate jobs queue rest item current stages waiting addressed =>
    exact inv.move current stages rfl rfl
      (forall_mem_cons.mpr ⟨rfl, (inv.shaped id call current).tail stages⟩)
  | finish current stages => exact inv.finish current stages
  | cleanup =>
    cases timed _ rfl
    exact { inv with tracks := inv.tracks.cleanup }
  | _ => exact inv

end Steps

end Cordis.Session
