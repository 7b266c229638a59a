import Cordis.Kafka.WorkerSteps

/-! # A partition worker processes its records in order and does not get stuck

What is enqueued to a worker reaches its handler in the same order, one record at a time, each until
it is completed. The overflow list is refilled only by the worker itself, and fetching is resumed only
by it, so both need a record in the channel or in processing that will bring the worker there.

The invariant of one state is `Sound`; `Chronicled` relates a state to what has been seen of the
workers so far.
-/

namespace Cordis.Kafka

open Observation Pool List Option

/-- The worker is between receiving a record and the end of `afterProcessed`. -/
def WorkerPhase.Busy (phase : WorkerPhase) : Prop := phase ≠ .receiving ∧ phase ≠ .stopped

/-- The worker has a record to receive or is busy with one. -/
def Worker.HasWork (worker : Worker) : Prop := worker.records ≠ [] ∨ worker.phase.Busy

variable {phase : WorkerPhase}

theorem WorkerPhase.busy_of_record (holds : phase.record ≠ none) : phase.Busy := by
  cases phase with
  | receiving | marked | stopped => exact absurd rfl holds
  | _ => exact ⟨by rintro ⟨⟩, by rintro ⟨⟩⟩

theorem Config.channelSize_pos (cfg : Config) : 0 < cfg.channelSize := by
  unfold channelSize withDefaults
  dsimp only
  split_ifs <;> omega

namespace Runtime

/-- Something waits for the worker: an overflowing record, or fetching until the worker resumes it. -/
def Waits (runtime : Runtime) : Prop :=
  runtime.queuedRecords ≠ [] ∨ .queue ∈ runtime.pauseReasons ∨ .retry ∈ runtime.pauseReasons

structure Sound (runtime : Runtime) : Prop where
  live : ∀ id worker, runtime.worker = some id → runtime.heap id = some worker → worker.Live
  working : ∀ id worker, runtime.worker = some id → runtime.heap id = some worker → runtime.Waits → worker.HasWork
  paused : runtime.worker ≠ none → (runtime.fetchPaused = true ↔ runtime.pauseReasons ≠ ∅)
  unassigned : runtime.worker = none → runtime.queuedRecords = [] ∧ runtime.pauseReasons = ∅
  known : runtime.heap.All fun id _ => id ≤ runtime.assignments

theorem refill_eq (cfg : Config) (runtime : Runtime) (id : ℕ) (worker : Worker) :
    (runtime.refill cfg id worker).heap = runtime.heap.set id { worker with
        records := worker.records ++ runtime.queuedRecords.take (cfg.channelSize - worker.records.length)
        phase := .receiving } ∧
      (runtime.refill cfg id worker).worker = runtime.worker ∧
      (runtime.refill cfg id worker).queuedRecords =
        runtime.queuedRecords.drop (cfg.channelSize - worker.records.length) := by
  unfold refill
  dsimp only
  split_ifs <;> exact ⟨rfl, rfl, rfl⟩

namespace Sound

variable {cfg : Config} {runtime after : Runtime} {id : ℕ} {worker moved : Worker} {seen : Option Observation}

section

variable (sound : runtime.Sound)

include sound

/-- A worker is rewritten. If it is the assigned one it stays alive and keeps some work. -/
theorem setWorker (present : runtime.heap id = some worker)
    (live : runtime.worker = some id → worker.Live → moved.Live)
    (work : runtime.worker = some id → runtime.Waits → moved.HasWork) : (runtime.setWorker id moved).Sound := by
  refine { sound with live := ?_, working := ?_, known := sound.known.set (sound.known id worker present) }
  · intro current found assigned held
    rcases of_set held with ⟨rfl, rfl⟩ | ⟨_, held⟩
    · exact live assigned (sound.live current worker assigned present)
    · exact sound.live current found assigned held
  · intro current found assigned held waits
    rcases of_set held with ⟨rfl, rfl⟩ | ⟨_, held⟩
    · exact work assigned waits
    · exact sound.working current found assigned held waits

/-- A worker goes on with the record it holds. -/
theorem setPhase (present : runtime.heap id = some worker) (busy : phase.Busy) :
    (runtime.setWorker id { worker with phase }).Sound :=
  sound.setWorker present (fun _ live => ⟨live.1, live.2.1, busy.2⟩) fun _ _ => .inr busy

variable (assigned : runtime.worker = some id)

include assigned

variable {pauseReasons : Finset PauseReason} {queuedRecords : List Record} {fetchPaused : Bool}

/-- The queue and the reasons change while the assigned worker has what they wait for. -/
theorem setQueue
    (paused : fetchPaused = true ↔ pauseReasons ≠ ∅) (work : ∀ worker, runtime.heap id = some worker →
      { runtime with queuedRecords, pauseReasons, fetchPaused : Runtime }.Waits → worker.HasWork) :
    ({ runtime with queuedRecords, pauseReasons, fetchPaused } : Runtime).Sound := by
  refine { sound with working := ?_, paused := fun _ => paused, unassigned := ?_ }
  · intro current worker found held waits
    cases assigned.symm.trans found
    exact work worker held waits
  · intro unassigned
    cases assigned.symm.trans unassigned

/-- The assigned worker is rewritten together with the queue and the reasons. -/
theorem rewrite (present : runtime.heap id = some worker) (live : moved.Live)
    (paused : fetchPaused = true ↔ pauseReasons ≠ ∅)
    (work : { runtime with queuedRecords, pauseReasons, fetchPaused : Runtime }.Waits → moved.HasWork) :
    ({ runtime with heap := runtime.heap.set id moved, queuedRecords, pauseReasons, fetchPaused } : Runtime).Sound := by
  refine ⟨?_, ?_, fun _ => paused, ?_, sound.known.set (sound.known id worker present)⟩
  · intro current found same held
    cases assigned.symm.trans same
    cases (set_self ..).symm.trans held
    exact live
  · intro current found same held waits
    cases assigned.symm.trans same
    cases (set_self ..).symm.trans held
    exact work waits
  · intro unassigned
    cases assigned.symm.trans unassigned

theorem paused_pause (reason : PauseReason) :
    (runtime.pause reason).fetchPaused = true ↔ (runtime.pause reason).pauseReasons ≠ ∅ := by
  have paused := sound.paused (by rw [assigned]; rintro ⟨⟩)
  simp only [Runtime.pause, Bool.or_eq_true, decide_eq_true_eq, paused]
  exact iff_of_true (ne_or_eq _ _) (Finset.insert_ne_empty _ _)

theorem paused_resume (reasons : Finset PauseReason) :
    (runtime.resume reasons).fetchPaused = true ↔ (runtime.resume reasons).pauseReasons ≠ ∅ := by
  have paused := sound.paused (by rw [assigned]; rintro ⟨⟩)
  simp only [Runtime.resume, Bool.and_eq_true, decide_eq_true_eq, paused]
  constructor
  · rintro ⟨some, apart | left⟩
    · intro none
      refine some (Finset.eq_empty_of_forall_notMem fun reason member => ?_)
      have cleared : reason ∈ runtime.pauseReasons ∩ reasons := by
        refine Finset.mem_inter.mpr ⟨member, ?_⟩
        by_contra kept
        exact absurd (Finset.mem_sdiff.mpr ⟨member, kept⟩) (none ▸ Finset.notMem_empty reason)
      exact absurd cleared (apart ▸ Finset.notMem_empty reason)
    · exact left
  · intro left
    refine ⟨fun none => left ?_, .inr left⟩
    rw [none, Finset.empty_sdiff]

theorem pause_commit : (runtime.pause .commit).Sound := by
  refine sound.setQueue assigned (sound.paused_pause assigned .commit) fun worker held waits => ?_
  refine sound.working id worker assigned held (waits.imp_right (Or.imp ?_ ?_)) <;>
    exact fun member => (Finset.mem_insert.mp member).resolve_left (by rintro ⟨⟩)

theorem resume (reasons : Finset PauseReason) : (runtime.resume reasons).Sound := by
  refine sound.setQueue assigned (sound.paused_resume assigned reasons) fun worker held waits => ?_
  refine sound.working id worker assigned held (waits.imp_right (Or.imp ?_ ?_)) <;>
    exact fun member => (Finset.mem_sdiff.mp member).1

end

theorem not_live_of_told (governed : runtime.Governed) (assigned : runtime.worker = some id)
    (told : runtime.Told worker) : ¬ worker.Live := by
  rintro ⟨active, uncancelled, _⟩
  rcases told with silent | cancelled | cancelled
  · cases active.symm.trans silent
  · cases uncancelled.symm.trans cancelled
  · cases (governed.alive assigned).symm.trans (governed.cancelled cancelled)

/-- The worker refills its channel. What is left in the overflow list waits behind a full channel, and
fetching stays paused only while a record is left. -/
theorem refill (sound : runtime.Sound) (assigned : runtime.worker = some id)
    (present : runtime.heap id = some worker) : (runtime.refill cfg id worker).Sound := by
  have live := sound.live id worker assigned present
  have unpaused := sound.paused (by rw [assigned]; rintro ⟨⟩)
  generalize room_eq : cfg.channelSize - worker.records.length = room
  have filled : runtime.queuedRecords.drop room ≠ [] → worker.records ++ runtime.queuedRecords.take room ≠ [] := by
    intro left none
    obtain ⟨empty, taken⟩ := append_eq_nil_iff.mp none
    have size := cfg.channelSize_pos
    rcases take_eq_nil_iff.mp taken with zero | queue
    · rw [empty, length_nil] at room_eq
      omega
    · exact left (by rw [queue, drop_nil])
  have alive : ({ worker with
      records := worker.records ++ runtime.queuedRecords.take room, phase := .receiving } : Worker).Live :=
    ⟨live.1, live.2.1, by rintro ⟨⟩⟩
  unfold Runtime.refill
  dsimp only
  rw [room_eq]
  split_ifs with finished
  · have cleared : ∀ reason ∈ ({.queue, .retry} : Finset PauseReason), reason ∉ runtime.pauseReasons \ {.queue, .retry} :=
      fun reason member kept => (Finset.mem_sdiff.mp kept).2 member
    refine sound.rewrite assigned present alive (sound.paused_resume assigned _) ?_
    rintro (queued | paused | paused)
    · exact absurd finished.1 queued
    · exact absurd paused (cleared _ (by decide))
    · exact absurd paused (cleared _ (by decide))
  · refine sound.rewrite assigned present alive unpaused fun _ => .inl fun none => finished ⟨?_, none⟩
    by_contra left
    exact filled left none

theorem effect (sound : runtime.Sound) (governed : runtime.Governed) (effect : runtime.Effect cfg seen after) :
    after.Sound := by
  cases effect with
  | quiet => exact sound
  | assign unassigned =>
    obtain ⟨empty, unpaused⟩ := sound.unassigned unassigned
    refine ⟨?_, ?_, ?_, ?_, ?_⟩
    · rintro id worker ⟨⟩ held
      cases (set_self ..).symm.trans held
      exact ⟨rfl, rfl, by rintro ⟨⟩⟩
    · rintro id worker ⟨⟩ held (queued | paused | paused)
      · exact absurd empty queued
      · exact absurd (unpaused ▸ paused) (Finset.notMem_empty _)
      · exact absurd (unpaused ▸ paused) (Finset.notMem_empty _)
    · exact fun _ => iff_of_false (by rintro ⟨⟩) (not_not.mpr unpaused)
    · rintro ⟨⟩
    · exact All.set (sound.known.mono fun _ _ _ known => known.trans (Nat.le_succ _)) le_rfl
  | push assigned present empty =>
    refine sound.setWorker present (fun _ live => live) fun _ _ => .inl ?_
    exact append_ne_nil_of_right_ne_nil _ (cons_ne_nil _ _)
  | @overflow id worker record assigned present full =>
    have paused := sound.paused_pause assigned .queue
    refine sound.setQueue assigned paused fun found held _ => ?_
    cases present.symm.trans held
    by_cases empty : runtime.queuedRecords = []
    · -- the channel is full, and it has room for at least one record
      refine .inl fun none => ?_
      have full := full empty
      rw [none, length_nil] at full
      exact absurd cfg.channelSize_pos (not_lt.mpr full)
    · exact sound.working id worker assigned present (.inl empty)
  | receive present phase records | mark present phase =>
    exact sound.setWorker present
      (fun _ live => ⟨live.1, live.2.1, by rintro ⟨⟩⟩) fun _ _ => .inr ⟨by rintro ⟨⟩, by rintro ⟨⟩⟩
  | advance present busy same => exact sound.setPhase present (WorkerPhase.busy_of_record (same ▸ busy))
  | @retry id worker record assigned present phase =>
    have moved : (runtime.setWorker id { worker with phase := .retrying record 1 }).Sound :=
      sound.setPhase present ⟨by rintro ⟨⟩, by rintro ⟨⟩⟩
    refine moved.setQueue assigned (moved.paused_pause assigned .retry) fun found held _ => ?_
    cases (set_self ..).symm.trans held
    exact .inr ⟨by rintro ⟨⟩, by rintro ⟨⟩⟩
  | quit present told =>
    exact sound.setWorker present
      (fun assigned live => absurd live (not_live_of_told governed assigned told))
      fun assigned _ => absurd (sound.live _ _ assigned present) (not_live_of_told governed assigned told)
  | @markBlocked id worker record other assigned present phase =>
    have moved : (runtime.setWorker id { worker with
        phase := .marked, lastCompleted := some record, finished := worker.finished ++ [record] }).Sound :=
      sound.setWorker present (fun _ live => ⟨live.1, live.2.1, by rintro ⟨⟩⟩) fun _ _ =>
        .inr ⟨by rintro ⟨⟩, by rintro ⟨⟩⟩
    exact moved.pause_commit assigned
  | acknowledge assigned => exact sound.resume assigned _
  | leave present phase removed =>
    exact sound.setWorker present
      (fun assigned => absurd assigned removed) fun assigned => absurd assigned removed
  | refill assigned present => exact sound.refill assigned present
  | revoke | stop =>
    exact { sound with
      live := by rintro _ _ ⟨⟩, working := by rintro _ _ ⟨⟩, paused := absurd rfl, unassigned := fun _ => ⟨rfl, rfl⟩ }
  | revoking | revoked | cancel => exact { sound with }
  | disturb removed present =>
    have unassigned := governed.unassigned removed
    refine sound.setWorker present (fun assigned => ?_) fun assigned => ?_ <;>
      cases unassigned.symm.trans assigned

end Sound

end Runtime

/-! ## What has been seen of a worker -/

/-- The handler has been called with the received records in order, with each once or more often. -/
inductive Retried : List Record → List Record → Prop
  | none : Retried [] []
  | first {calls received} (record : Record) (before : Retried calls received) :
      Retried (calls ++ [record]) (received ++ [record])
  | again {calls received} {record : Record} (before : Retried calls (received ++ [record])) :
      Retried (calls ++ [record]) (received ++ [record])

/-- Whom it was seen of. -/
def Observation.worker : Observation → ℕ
  | .accepted worker _ | .called worker _ => worker

def Observation.acceptedBy (id : ℕ) : Observation → Option Record
  | .accepted worker record => if worker = id then some record else none
  | .called .. => none

def Observation.calledBy (id : ℕ) : Observation → Option Record
  | .called worker record => if worker = id then some record else none
  | .accepted .. => none

/-- The records enqueued to the worker. -/
def accepted (id : ℕ) (seen : List Observation) : List Record := seen.filterMap (Observation.acceptedBy id)

/-- The records the worker's handler was called with, one for each call. -/
def called (id : ℕ) (seen : List Observation) : List Record := seen.filterMap (Observation.calledBy id)

/-- What was enqueued to a worker has been received, is in its channel, or is behind the channel; all
received records but at most the last are completed. -/
structure Chronicle (seen : List Observation) (id : ℕ) (worker : Worker) (received behind : List Record) : Prop where
  calls : Retried (called id seen) received
  accepts : accepted id seen = received ++ (worker.records ++ behind)
  completed : worker.finished <+: received
  lag : received.length ≤ worker.finished.length + 1
  current : worker.phase ≠ .stopped → received = worker.finished ++ worker.phase.record.toList

structure Chronicled (runtime : Runtime) (seen : List Observation) : Prop where
  unknown : ∀ id, runtime.heap id = none → accepted id seen = [] ∧ called id seen = []
  known : runtime.heap.All fun id worker => ∃ received behind, Chronicle seen id worker received behind ∧
    (runtime.worker = some id → behind = runtime.queuedRecords)

section Chronicle

variable {cfg : Config} {runtime after : Runtime} {id other : ℕ} {worker moved : Worker} {seen : List Observation}
  {observed : Option Observation} {received behind : List Record} {record : Record}

theorem filterMap_append_toList {Item Image : Type*} (f : Item → Option Image) (items : List Item) (last : Option Item) :
    (items ++ last.toList).filterMap f = items.filterMap f ++ (last.bind f).toList := by
  rw [filterMap_append]
  cases last with
  | none => rfl
  | some item =>
    simp only [toList_some, bind_some]
    cases image : f item with
    | none => rw [filterMap_cons_none image]; rfl
    | some _ => rw [filterMap_cons_some image]; rfl

theorem accepted_append (id : ℕ) (seen : List Observation) (observed : Option Observation) :
    accepted id (seen ++ observed.toList) = accepted id seen ++ (observed.bind (acceptedBy id)).toList :=
  filterMap_append_toList ..

theorem called_append (id : ℕ) (seen : List Observation) (observed : Option Observation) :
    called id (seen ++ observed.toList) = called id seen ++ (observed.bind (calledBy id)).toList :=
  filterMap_append_toList ..

/-- What is seen of one worker says nothing about another. -/
theorem append_of_ne (subject : ∀ observation ∈ observed, observation.worker = id) (different : other ≠ id) :
    accepted other (seen ++ observed.toList) = accepted other seen ∧
      called other (seen ++ observed.toList) = called other seen := by
  rw [accepted_append, called_append]
  cases observed with
  | none => simp
  | some observation =>
    cases observation with
    | accepted worker record | called worker record =>
      have apart : worker ≠ other := (subject _ rfl).trans_ne different.symm
      simp [acceptedBy, calledBy, apart]

/-- A worker is rewritten, with what has been seen of it. -/
theorem Chronicled.set (chronicled : Chronicled runtime seen) (present : runtime.heap id = some worker)
    (subject : ∀ observation ∈ observed, observation.worker = id) (heap : after.heap = runtime.heap.set id moved)
    (same : after.worker = runtime.worker)
    (queue : runtime.worker ≠ some id → after.queuedRecords = runtime.queuedRecords)
    (step : ∀ received behind, Chronicle seen id worker received behind →
      (runtime.worker = some id → behind = runtime.queuedRecords) →
      ∃ received behind, Chronicle (seen ++ observed.toList) id moved received behind ∧
        (runtime.worker = some id → behind = after.queuedRecords)) :
    Chronicled after (seen ++ observed.toList) := by
  constructor
  · intro other absent
    rw [heap] at absent
    have different : other ≠ id := by
      rintro rfl
      rw [set_self] at absent
      cases absent
    rw [set_of_ne _ different] at absent
    rw [(append_of_ne subject different).1, (append_of_ne subject different).2]
    exact chronicled.unknown other absent
  · rw [heap, same]
    refine All.set_of ?_ fun other found different held => ?_
    · obtain ⟨received, behind, chronicle, queued⟩ := chronicled.known id worker present
      exact step received behind chronicle queued
    · obtain ⟨received, behind, chronicle, queued⟩ := chronicled.known other found held
      refine ⟨received, behind, ⟨?_, ?_, chronicle.completed, chronicle.lag, chronicle.current⟩, fun assigned => ?_⟩
      · rw [(append_of_ne subject different).2]
        exact chronicle.calls
      · rw [(append_of_ne subject different).1]
        exact chronicle.accepts
      · rw [queued assigned, queue (by rw [assigned]; exact fun same => different (some.inj same))]

/-- The workers are left as they are; the assigned one may be removed, with its queue. -/
theorem Chronicled.keep (chronicled : Chronicled runtime seen) (heap : after.heap = runtime.heap)
    (queue : ∀ id, after.worker = some id → runtime.worker = some id ∧ after.queuedRecords = runtime.queuedRecords) :
    Chronicled after seen := by
  constructor
  · rw [heap]
    exact chronicled.unknown
  · rw [heap]
    refine chronicled.known.mono fun id worker _ ⟨received, behind, chronicle, queued⟩ => ?_
    refine ⟨received, behind, chronicle, fun assigned => ?_⟩
    rw [queued (queue id assigned).1, (queue id assigned).2]

section

variable (chronicle : Chronicle seen id worker received behind)

include chronicle

/-- A worker goes on with its record, and may call the handler with it again. -/
theorem Chronicle.recall (recalls : Runtime.Recalls id worker observed) :
    accepted id (seen ++ observed.toList) = accepted id seen ∧ Retried (called id (seen ++ observed.toList)) received := by
  rw [accepted_append, called_append]
  rcases recalls with rfl | ⟨record, holds, rfl⟩
  · simp [chronicle.calls]
  · have going : worker.phase ≠ .stopped := by
      intro stopped
      rw [stopped] at holds
      cases holds
    have last : received = worker.finished ++ [record] := by
      rw [chronicle.current going, holds]
      rfl
    have calls := chronicle.calls
    rw [last] at calls ⊢
    simpa [acceptedBy, calledBy] using calls.again

theorem Chronicle.setPhase (recalls : Runtime.Recalls id worker observed)
    (going : worker.phase ≠ .stopped) (same : phase.record = worker.phase.record) :
    Chronicle (seen ++ observed.toList) id { worker with phase } received behind where
  calls := (chronicle.recall recalls).2
  accepts := (chronicle.recall recalls).1.trans chronicle.accepts
  completed := chronicle.completed
  lag := chronicle.lag
  current _ := same ▸ chronicle.current going

/-- A record joins the end of what is enqueued to the worker. -/
theorem Chronicle.accept {records rest : List Record}
    (joined : records ++ rest = worker.records ++ behind ++ [record]) :
    Chronicle (seen ++ (some (Observation.accepted id record)).toList) id { worker with records } received rest where
  calls := by
    rw [called_append]
    simpa [calledBy] using chronicle.calls
  accepts := by
    rw [accepted_append, chronicle.accepts, joined]
    simp [acceptedBy]
  completed := chronicle.completed
  lag := chronicle.lag
  current := chronicle.current

/-- The worker receives the first record of its channel. -/
theorem Chronicle.receive (phase : worker.phase = .receiving) {rest : List Record}
    (records : worker.records = record :: rest) :
    Chronicle (seen ++ (some (Observation.called id record)).toList) id
      { worker with records := rest, phase := .handling record } (received ++ [record]) behind := by
  have before : received = worker.finished := by
    rw [chronicle.current (by rw [phase]; rintro ⟨⟩), phase]
    exact append_nil _
  constructor
  · rw [called_append]
    simpa [calledBy] using chronicle.calls.first record
  · rw [accepted_append, chronicle.accepts, records]
    simp [acceptedBy]
  · exact chronicle.completed.trans (prefix_append ..)
  · rw [before, length_append]
    rfl
  · intro _
    rw [before]
    rfl

/-- The record that the worker holds is completed. -/
theorem Chronicle.mark (phase : worker.phase = .completing record) :
    Chronicle seen id { worker with
      phase := .marked, lastCompleted := some record, finished := worker.finished ++ [record] } received behind := by
  have last : received = worker.finished ++ [record] := by
    rw [chronicle.current (by rw [phase]; rintro ⟨⟩), phase]
    rfl
  refine ⟨chronicle.calls, chronicle.accepts, last ▸ prefix_rfl, ?_, fun _ => last.trans (append_nil _).symm⟩
  rw [last]
  exact Nat.le_succ _

end

theorem Chronicled.effect (chronicled : Chronicled runtime seen) (sound : runtime.Sound)
    (effect : runtime.Effect cfg observed after) : Chronicled after (seen ++ observed.toList) := by
  have going {worker : Worker} (holds : worker.phase.record ≠ none) : worker.phase ≠ .stopped := by
    intro stopped
    rw [stopped] at holds
    exact holds rfl
  cases effect with
  | quiet | acknowledge | revoking | revoked | cancel =>
    rw [toList_none, append_nil]
    exact chronicled.keep rfl fun _ assigned => ⟨assigned, rfl⟩
  | revoke | stop =>
    rw [toList_none, append_nil]
    exact chronicled.keep rfl (by rintro _ ⟨⟩)
  | assign unassigned =>
    have fresh : runtime.heap (runtime.assignments + 1) = none := by
      rcases eq_none_or_eq_some (runtime.heap (runtime.assignments + 1)) with absent | ⟨worker, held⟩
      · exact absent
      · exact absurd (sound.known _ worker held) (Nat.not_succ_le_self _)
    obtain ⟨none, uncalled⟩ := chronicled.unknown _ fresh
    rw [toList_none, append_nil]
    constructor
    · intro other absent
      refine chronicled.unknown other ((Pool.set_of_ne _ ?_ _).symm.trans absent)
      rintro rfl
      cases (Pool.set_self ..).symm.trans absent
    · refine All.set_of ⟨[], [], ⟨uncalled ▸ .none, none, prefix_rfl, Nat.zero_le _, fun _ => rfl⟩, fun _ => ?_⟩ ?_
      · exact (sound.unassigned unassigned).1.symm
      · intro other found different held
        obtain ⟨received, behind, chronicle, _⟩ := chronicled.known other found held
        exact ⟨received, behind, chronicle, fun assigned => absurd (some.inj assigned).symm different⟩
  | push assigned present empty =>
    refine chronicled.set present (by rintro _ ⟨⟩; rfl) rfl rfl (fun _ => rfl) fun received behind chronicle queued => ?_
    refine ⟨received, [], chronicle.accept ?_, fun _ => empty.symm⟩
    rw [queued assigned, empty, append_nil, append_nil]
  | overflow assigned present =>
    refine chronicled.set present (by rintro _ ⟨⟩; rfl) (Pool.set_eq_self present).symm rfl
      (fun other => absurd assigned other) fun received behind chronicle queued => ?_
    refine ⟨received, _, chronicle.accept ?_, fun _ => rfl⟩
    rw [queued assigned, append_assoc]
    rfl
  | receive present phase records =>
    refine chronicled.set present (by rintro _ ⟨⟩; rfl) rfl rfl (fun _ => rfl) fun received behind chronicle queued => ?_
    exact ⟨_, behind, chronicle.receive phase records, queued⟩
  | advance present busy same recalls =>
    refine chronicled.set present ?_ rfl rfl (fun _ => rfl) fun received behind chronicle queued => ?_
    · rcases recalls with rfl | ⟨_, _, rfl⟩
      · rintro _ ⟨⟩
      · rintro _ ⟨⟩
        rfl
    · exact ⟨received, behind, chronicle.setPhase recalls (going busy) same, queued⟩
  | retry assigned present phase | leave present phase =>
    refine chronicled.set present (by rintro _ ⟨⟩) rfl rfl (fun _ => rfl) fun received behind chronicle queued => ?_
    exact ⟨received, behind, chronicle.setPhase (.inl rfl) (by rw [phase]; rintro ⟨⟩) (by rw [phase]; rfl), queued⟩
  | quit present told recalls =>
    refine chronicled.set present ?_ rfl rfl (fun _ => rfl) fun received behind chronicle queued => ?_
    · rcases recalls with rfl | ⟨_, _, rfl⟩
      · rintro _ ⟨⟩
      · rintro _ ⟨⟩
        rfl
    · exact ⟨received, behind, ⟨(chronicle.recall recalls).2, (chronicle.recall recalls).1.trans chronicle.accepts,
        chronicle.completed, chronicle.lag, absurd rfl⟩, queued⟩
  | mark present phase | markBlocked assigned present phase =>
    refine chronicled.set present (by rintro _ ⟨⟩) rfl rfl (fun _ => rfl) fun received behind chronicle queued => ?_
    rw [toList_none, append_nil]
    exact ⟨received, behind, chronicle.mark phase, queued⟩
  | refill assigned present phase =>
    obtain ⟨heap, same, queue⟩ := Runtime.refill_eq cfg runtime _ _
    refine chronicled.set present (by rintro _ ⟨⟩) heap same (fun other => absurd assigned other)
      fun received behind chronicle queued => ⟨received, _, ?_, fun _ => rfl⟩
    rw [toList_none, append_nil, queue]
    have current : received = _ := chronicle.current (by rw [phase]; rintro ⟨⟩)
    refine ⟨chronicle.calls, ?_, chronicle.completed, chronicle.lag, fun _ => by rw [current, phase]; rfl⟩
    rw [chronicle.accepts, queued assigned, append_assoc _ (take _ _), take_append_drop]
  | disturb removed present =>
    refine chronicled.set present (by rintro _ ⟨⟩) rfl rfl (fun _ => rfl) fun received behind chronicle queued => ?_
    rw [toList_none, append_nil]
    exact ⟨received, behind, ⟨chronicle.calls, chronicle.accepts, chronicle.completed, chronicle.lag, chronicle.current⟩, queued⟩

end Chronicle

end Cordis.Kafka
