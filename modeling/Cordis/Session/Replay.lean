import Cordis.Machine.Run
import Cordis.Machine.RetainedLog
import Cordis.Session.State

/-! # The replay buffer of one session over whole runs

A session numbers the frames it owes its client and keeps the most recent ones for replay. The
events below are every critical section that can touch one session, in any order: dispatches,
acknowledgements on both paths, detaching, delivery, resumption, and removal. `owed` lists the
frames an event numbers, so the frames numbered along a run form a log, and the session represents
a retained suffix of that log. The floor raised by eviction and the acknowledged sequence are two
parts of one low-water mark.
-/

namespace Cordis.Session

open RetainedLog List

/-- The critical sections on one session, with the pointers, requests, and moments they use. -/
inductive SessionEvent where
  | dispatch (eventType : String) (payload : Bytes) (moment : Moment)
  | ready (payload : Bytes) (moments : ℕ → Moment)
  | heartbeat (binding sequence : ℕ)
  | heartbeatAck (binding : ℕ) (sendFirst : Bool)
  | checkpoint (gatewayID gatewayGeneration : String) (checkpoint : GatewayConnectionCheckpoint)
  | detach (binding now : ℕ)
  | close (binding : ℕ)
  | send (binding : ℕ)
  | drain (sendFirst : Bool)
  | resume (request : ResumeRequest) (moment : Moment)
  | remove

/-- Queue a frame on a binding without numbering it; a full or closed binding drops it. -/
def offer (session : LogicalSession) (pointer : ℕ) (frame : ConnectResponse) (sendFirst : Bool) :
    LogicalSession :=
  match enqueue (session.bindings pointer) frame sendFirst with
  | .ok queued => session.setBinding pointer queued
  | .error _ => session

/-- The frame that asks a bound client to reconnect while the node drains. -/
def drainFrame : ConnectResponse where
  opcode := opInvalid
  jsonPayload := [102, 97, 108, 115, 101]
  closeCode := 1012
  closeReason := "session node draining"

/-- A rejected request leaves the session as it was. -/
def stepSession (cfg : NodeConfig) (session : LogicalSession) : SessionEvent → LogicalSession
  | .dispatch eventType payload moment => (dispatchSession cfg session eventType payload moment).1
  | .ready payload moments => (readyLocked cfg session payload moments).toOption.getD session
  | .heartbeat binding sequence => (heartbeat session binding sequence).toOption.getD session
  | .heartbeatAck binding sendFirst => offer session binding Session.heartbeatAck sendFirst
  | .checkpoint gatewayID gatewayGeneration checkpoint =>
      (applyCheckpoint session gatewayID gatewayGeneration checkpoint).getD session
  | .detach binding now => (detachLocked session binding now).getD session
  | .close binding => session.closeBinding binding
  | .send binding =>
      session.setBinding binding
        { session.bindings binding with send := (session.bindings binding).send.tail }
  | .drain sendFirst =>
      match session.binding with
      | none => session
      | some pointer => offer session pointer drainFrame sendFirst
  | .resume request moment => (resumeLocked cfg session request moment).toOption.getD session
  | .remove => unbindLocked session

/-- Number a list of events from the current sequence on. -/
def numberFrom (sequence : ℕ) (items : List PendingDispatch) : List ConnectResponse :=
  items.zipIdx.map fun item => dispatchFrame (sequence + item.2 + 1) item.1.eventType item.1.payload

theorem numberFrom_cons (sequence : ℕ) (item : PendingDispatch) (rest : List PendingDispatch) :
    numberFrom sequence (item :: rest) =
      dispatchFrame (sequence + 1) item.eventType item.payload :: numberFrom (sequence + 1) rest := by
  simp only [numberFrom, zipIdx_cons, map_cons, Nat.add_zero, Nat.zero_add,
    zipIdx_succ, map_map, cons.injEq, true_and]
  apply map_congr_left
  intro pair _
  simp only [Function.comp_apply]
  congr 1
  omega

/-- The frames an event numbers, which the session then owes its client. -/
def owed (cfg : NodeConfig) (session : LogicalSession) : SessionEvent → List ConnectResponse
  | .dispatch eventType payload _ =>
      if session.initializing then [] else numberFrom session.sequence [⟨eventType, payload⟩]
  | .ready payload _ =>
      if session.pendingDispatchOverflow then []
      else numberFrom session.sequence (⟨gatewayEventReady, payload⟩ :: session.pendingDispatches)
  | .resume request moment =>
      match resumeLocked cfg session request moment with
      | .ok _ => numberFrom session.sequence [⟨gatewayEventResumed, emptyObject⟩]
      | .error _ => []
  | _ => []

/-- A step together with the log of every frame numbered so far. The log is not kept by the code. -/
def stepLogged (cfg : NodeConfig) (state : LogicalSession × List ConnectResponse)
    (event : SessionEvent) : LogicalSession × List ConnectResponse :=
  (stepSession cfg state.1 event, state.2 ++ owed cfg state.1 event)

/-- The replay entry of a numbered frame. -/
def entryOf (frame : ConnectResponse) : ReplayEntry := ⟨frame.sequence, frame⟩

/-- The session keeps exactly the retained suffix of its log, and its two marks are the low-water
mark of that log. -/
structure Represents (cfg : NodeConfig) (l : RetainedLog ConnectResponse) (session : LogicalSession) :
    Prop where
  sequence : session.sequence = l.log.length
  numbers : Numbered ConnectResponse.sequence 1 l.log
  low : l.low = max session.replayFloor session.ackedSequence
  replay : session.replay = l.retained.map entryOf
  bounded : l.retained.length ≤ cfg.replayLimit

/-- Two sessions that agree on everything replay depends on. -/
structure SameReplay (before after : LogicalSession) : Prop where
  sequence : after.sequence = before.sequence
  ackedSequence : after.ackedSequence = before.ackedSequence
  replay : after.replay = before.replay
  replayFloor : after.replayFloor = before.replayFloor

section

variable (session : LogicalSession)

include session

theorem SameReplay.refl : SameReplay session session := ⟨rfl, rfl, rfl, rfl⟩

theorem sameReplay_enqueueCurrent (frame : ConnectResponse) (moment : Moment) :
    SameReplay session (enqueueCurrent session frame moment) := by
  unfold enqueueCurrent
  split
  · exact .refl session
  · split <;> exact ⟨rfl, rfl, rfl, rfl⟩

theorem sameReplay_offer (pointer : ℕ) (frame : ConnectResponse) (sendFirst : Bool) :
    SameReplay session (offer session pointer frame sendFirst) := by
  unfold offer
  split <;> exact ⟨rfl, rfl, rfl, rfl⟩

theorem sameReplay_detachLocked (binding now : ℕ) :
    SameReplay session ((detachLocked session binding now).getD session) := by
  unfold detachLocked
  split <;> exact ⟨rfl, rfl, rfl, rfl⟩

theorem sameReplay_unbindLocked : SameReplay session (unbindLocked session) := by
  unfold unbindLocked
  split <;> exact ⟨rfl, rfl, rfl, rfl⟩

end

theorem sameReplay_rebindLocked (cfg : NodeConfig) (session : LogicalSession)
    (request : ResumeRequest) : SameReplay session (rebindLocked cfg session request) := by
  unfold rebindLocked
  cases session.binding <;> exact ⟨rfl, rfl, rfl, rfl⟩

namespace Represents

variable {cfg : NodeConfig} {l : RetainedLog ConnectResponse} {session : LogicalSession}

variable (represents : Represents cfg l session)

include represents

theorem congr {after : LogicalSession} (same : SameReplay session after) : Represents cfg l after where
  sequence := same.sequence.trans represents.sequence
  numbers := represents.numbers
  low := by rw [represents.low, same.replayFloor, same.ackedSequence]
  replay := same.replay.trans represents.replay
  bounded := represents.bounded

theorem numbered_replay : Numbered ReplayEntry.sequence (1 + l.low) session.replay := by
  have numbers : Numbered ConnectResponse.sequence (1 + l.low) l.retained := represents.numbers.drop l.low
  rw [Numbered, represents.replay, map_map, length_map]
  exact numbers

/-- The floor after an eviction is the number of the last evicted entry. -/
private theorem evicted_floor (frame : ConnectResponse) (exceeds : cfg.replayLimit < session.replay.length + 1) :
    ((session.replay ++ [⟨session.sequence + 1, frame⟩])[session.replay.length + 1 - cfg.replayLimit - 1]?.map
      ReplayEntry.sequence) = some (l.log.length + 1 - cfg.replayLimit) := by
  have valid := l.valid
  have length : session.replay.length = l.log.length - l.low := by
    rw [represents.replay, length_map, l.length_retained]
  have numbered : Numbered ReplayEntry.sequence (1 + l.low)
      (session.replay ++ [⟨session.sequence + 1, frame⟩]) := by
    refine represents.numbered_replay.append ?_
    change session.sequence + 1 = _
    rw [length, represents.sequence]
    omega
  rw [numbered.getElem? (by rw [length_append, length_singleton]; omega)]
  congr 1
  omega

/-- Numbering one more frame appends it to the log and evicts what exceeds the limit. -/
theorem pushReplay {frame : ConnectResponse} (next : frame.sequence = session.sequence + 1) :
    Represents cfg (l.push cfg.replayLimit frame) (pushReplay cfg session frame) := by
  have valid := l.valid
  have length : session.replay.length = l.log.length - l.low := by
    rw [represents.replay, length_map, l.length_retained]
  have entry : (⟨session.sequence + 1, frame⟩ : ReplayEntry) = entryOf frame := by
    rw [entryOf, next]
  have extended : session.replay ++ [⟨session.sequence + 1, frame⟩] =
      (l.retained ++ [frame]).map entryOf := by
    rw [represents.replay, entry, map_append, map_singleton]
  have numbers : Numbered ConnectResponse.sequence 1 (l.log ++ [frame]) :=
    represents.numbers.append (by rw [next, represents.sequence, Nat.add_comm])
  have kept : (l.push cfg.replayLimit frame).retained.map entryOf =
      (session.replay ++ [(⟨session.sequence + 1, frame⟩ : ReplayEntry)]).drop
        (session.replay.length + 1 - cfg.replayLimit) := by
    rw [l.retained_push, extended, map_drop, represents.replay]
    simp
  have bounded := l.length_retained_push cfg.replayLimit frame
  have low := represents.low
  by_cases exceeds : cfg.replayLimit < session.replay.length + 1
  · have floor := represents.evicted_floor frame exceeds
    simp only [Session.pushReplay, length_append, length_singleton, gt_iff_lt, exceeds, ↓reduceIte]
    refine ⟨?_, numbers, ?_, kept.symm, bounded⟩
    · simp [RetainedLog.push, represents.sequence]
    · simp only [RetainedLog.push, floor, Option.getD_some]
      omega
  · simp only [Session.pushReplay, length_append, length_singleton, gt_iff_lt, exceeds, ↓reduceIte]
    refine ⟨?_, numbers, ?_, ?_, bounded⟩
    · simp [RetainedLog.push, represents.sequence]
    · simp only [RetainedLog.push]
      omega
    · rw [kept, show session.replay.length + 1 - cfg.replayLimit = 0 by omega, drop_zero]

theorem appendDispatchLocked (eventType : String) (payload : Bytes) (moment : Moment) :
    Represents cfg (l.push cfg.replayLimit (dispatchFrame (session.sequence + 1) eventType payload))
      (appendDispatchLocked cfg session eventType payload moment) :=
  (represents.pushReplay rfl).congr (sameReplay_enqueueCurrent _ _ _)

/-- An acknowledgement the session accepts releases the acknowledged prefix. -/
theorem acknowledgeLocked {sequence : ℕ} (bound : sequence ≤ session.sequence) :
    Represents cfg (l.release sequence (represents.sequence ▸ bound))
      (acknowledgeLocked session sequence) := by
  have low := represents.low
  have released := l.retained_release sequence (represents.sequence ▸ bound)
  have bounded := le_trans (l.length_retained_release sequence (represents.sequence ▸ bound))
    represents.bounded
  unfold Session.acknowledgeLocked
  split
  · next old =>
    refine ⟨represents.sequence, represents.numbers, ?_, ?_, bounded⟩
    · simp only [release]
      omega
    · rw [released, show sequence - l.low = 0 by omega, drop_zero]
      exact represents.replay
  · next fresh =>
    refine ⟨represents.sequence, represents.numbers, ?_, ?_, bounded⟩
    · simp only [release]
      omega
    · rw [released, map_drop, ← represents.replay, represents.numbered_replay.dropWhile]
      exact congrArg (fun k => session.replay.drop k) (by omega)

/-- What a client at a served position has missed is the rest of the log. -/
theorem missed_eq {sequence : ℕ} (serves : l.Serves sequence) :
    missed session sequence = (l.log.drop sequence).map entryOf := by
  rw [missed, represents.numbered_replay.filter, ← serves.drop_retained, map_drop,
    ← represents.replay]
  congr 1
  omega

theorem sequence_appendDispatchLocked (eventType : String) (payload : Bytes) (moment : Moment) :
    (Session.appendDispatchLocked cfg session eventType payload moment).sequence = session.sequence + 1 := by
  rw [(represents.appendDispatchLocked eventType payload moment).sequence, represents.sequence]
  simp [push]

/-- Numbering a list of events appends exactly their frames to the log. -/
theorem foldl_append (items : List PendingDispatch) (offset : ℕ) (moments : ℕ → Moment) :
    ∃ grown : RetainedLog ConnectResponse,
      grown.log = l.log ++ numberFrom session.sequence items ∧
      Represents cfg grown ((items.zipIdx offset).foldl
        (fun current item => Session.appendDispatchLocked cfg current item.1.eventType item.1.payload
          (moments item.2)) session) := by
  induction items generalizing l session offset with
  | nil => exact ⟨l, by simp [numberFrom], represents⟩
  | cons item rest ih =>
    have head := represents.appendDispatchLocked item.eventType item.payload (moments offset)
    obtain ⟨grown, log, tail⟩ := ih head (offset + 1)
    refine ⟨grown, ?_, tail⟩
    rw [log, represents.sequence_appendDispatchLocked, numberFrom_cons]
    simp [push]

theorem dispatchSession (eventType : String) (payload : Bytes) (moment : Moment) :
    ∃ grown : RetainedLog ConnectResponse,
      grown.log = l.log ++ owed cfg session (.dispatch eventType payload moment) ∧
      Represents cfg grown (dispatchSession cfg session eventType payload moment).1 := by
  by_cases buffering : session.initializing = true
  · simp only [Session.dispatchSession, owed, buffering, ↓reduceIte, append_nil]
    refine ⟨l, rfl, ?_⟩
    split
    · exact represents
    · split <;> exact represents.congr ⟨rfl, rfl, rfl, rfl⟩
  · simp only [Session.dispatchSession, owed, buffering, Bool.false_eq_true, ↓reduceIte]
    exact ⟨_, rfl, represents.appendDispatchLocked eventType payload moment⟩

theorem readyLocked (ready : Bytes) (moments : ℕ → Moment) :
    ∃ grown : RetainedLog ConnectResponse,
      grown.log = l.log ++ owed cfg session (.ready ready moments) ∧
      Represents cfg grown ((readyLocked cfg session ready moments).toOption.getD session) := by
  by_cases overflow : session.pendingDispatchOverflow = true
  · simp only [Session.readyLocked, owed, overflow, ↓reduceIte, append_nil]
    exact ⟨l, rfl, represents⟩
  · simp only [Session.readyLocked, owed, overflow, Bool.false_eq_true, ↓reduceIte]
    have greeted := represents.appendDispatchLocked gatewayEventReady ready (moments 0)
    obtain ⟨grown, log, flushed⟩ :=
      greeted.foldl_append session.pendingDispatches 0 (fun index => moments (index + 1))
    refine ⟨grown, ?_, flushed.congr ⟨rfl, rfl, rfl, rfl⟩⟩
    rw [log, represents.sequence_appendDispatchLocked, numberFrom_cons]
    simp [RetainedLog.push]

theorem heartbeat (binding sequence : ℕ) :
    ∃ kept : RetainedLog ConnectResponse, kept.log = l.log ∧
      Represents cfg kept ((heartbeat session binding sequence).toOption.getD session) := by
  unfold Session.heartbeat
  split_ifs with stale ahead
  · exact ⟨l, rfl, represents⟩
  · exact ⟨l, rfl, represents⟩
  · exact ⟨l.release sequence _, rfl, represents.acknowledgeLocked (Nat.le_of_not_lt ahead)⟩

theorem applyCheckpoint (gatewayID gatewayGeneration : String) (checkpoint : GatewayConnectionCheckpoint) :
    ∃ kept : RetainedLog ConnectResponse, kept.log = l.log ∧
      Represents cfg kept
        ((applyCheckpoint session gatewayID gatewayGeneration checkpoint).getD session) := by
  unfold Session.applyCheckpoint
  split
  · exact ⟨l, rfl, represents⟩
  · dsimp only
    split_ifs with stale
    · exact ⟨l, rfl, represents⟩
    · simp only [not_or, not_lt] at stale
      exact ⟨l.release checkpoint.acknowledgedSequence _, rfl,
        represents.acknowledgeLocked stale.2.2.2.2⟩

theorem resumeLocked (request : ResumeRequest) (moment : Moment) :
    ∃ grown : RetainedLog ConnectResponse,
      grown.log = l.log ++ owed cfg session (.resume request moment) ∧
      Represents cfg grown ((resumeLocked cfg session request moment).toOption.getD session) := by
  simp only [owed]
  unfold Session.resumeLocked
  split_ifs with ahead expired
  · exact ⟨l, (append_nil _).symm, represents⟩
  · exact ⟨l, (append_nil _).symm, represents⟩
  · have same := sameReplay_rebindLocked cfg session request
    have rebound := represents.congr same
    refine ⟨_, ?_, rebound.appendDispatchLocked gatewayEventResumed emptyObject moment⟩
    simp only [push, same.sequence, numberFrom_cons]
    rfl

/-- Every critical section keeps the representation and appends exactly the frames it owes. -/
theorem step (event : SessionEvent) :
    ∃ grown : RetainedLog ConnectResponse, grown.log = l.log ++ owed cfg session event ∧
      Represents cfg grown (stepSession cfg session event) := by
  cases event with
  | dispatch eventType payload moment => exact represents.dispatchSession eventType payload moment
  | ready payload moments => exact represents.readyLocked payload moments
  | resume request moment => exact represents.resumeLocked request moment
  | heartbeat binding sequence =>
    simpa only [owed, append_nil, stepSession] using represents.heartbeat binding sequence
  | checkpoint gatewayID gatewayGeneration checkpoint =>
    simpa only [owed, append_nil, stepSession] using
      represents.applyCheckpoint gatewayID gatewayGeneration checkpoint
  | heartbeatAck binding sendFirst =>
    exact ⟨l, (append_nil _).symm, represents.congr (sameReplay_offer _ _ _ _)⟩
  | detach binding now =>
    exact ⟨l, (append_nil _).symm, represents.congr (sameReplay_detachLocked _ _ _)⟩
  | close binding | send binding => exact ⟨l, (append_nil _).symm, represents.congr ⟨rfl, rfl, rfl, rfl⟩⟩
  | drain sendFirst =>
    refine ⟨l, (append_nil _).symm, represents.congr ?_⟩
    simp only [stepSession]
    split
    · exact .refl session
    · exact sameReplay_offer _ _ _ _
  | remove => exact ⟨l, (append_nil _).symm, represents.congr (sameReplay_unbindLocked _)⟩

end Represents

/-- The session of a run represents the log of everything the run has numbered. -/
def Tracks (cfg : NodeConfig) (state : LogicalSession × List ConnectResponse) : Prop :=
  ∃ l : RetainedLog ConnectResponse, l.log = state.2 ∧ Represents cfg l state.1

section

variable (cfg : NodeConfig)

include cfg

variable {state : LogicalSession × List ConnectResponse}

theorem tracks_step (tracks : Tracks cfg state)
    (event : SessionEvent) : Tracks cfg (stepLogged cfg state event) := by
  obtain ⟨l, log, represents⟩ := tracks
  obtain ⟨grown, appended, kept⟩ := represents.step event
  exact ⟨grown, by rw [appended, log]; rfl, kept⟩

theorem tracks_run (tracks : Tracks cfg state)
    (events : List SessionEvent) : Tracks cfg (events.foldl (stepLogged cfg) state) :=
  Machine.invariant_run (m := Machine.total (stepLogged cfg))
    (fun _ event _ kept step => Option.some.inj step ▸ tracks_step cfg kept event)
    (Machine.run_total _ _ _) tracks

theorem tracks_newSession (id : String) (userID authSessionID : ℤ)
    (connectionID gatewayID gatewayGeneration : String) (guilds : Finset ℤ) :
    Tracks cfg
      (newSession cfg id userID authSessionID connectionID gatewayID gatewayGeneration guilds, []) :=
  ⟨.empty, rfl, rfl, numbered_nil 1, rfl, rfl, Nat.zero_le _⟩

variable (session : LogicalSession) (request : ResumeRequest)

theorem rebindLocked_binding : (rebindLocked cfg session request).binding = some (session.bindingEpoch + 1) := rfl

theorem rebindLocked_fresh : (rebindLocked cfg session request).bindings (session.bindingEpoch + 1) =
      { newBinding request.connectionID (session.bindingEpoch + 1)
          (max cfg.queueSize ((missed session request.sequence).length + 1)) with
        send := (missed session request.sequence).map ReplayEntry.frame } := by
  simp [rebindLocked, LogicalSession.setBinding_bindings, cloneFrame_eq]

theorem pushReplay_binding (frame : ConnectResponse) : (pushReplay cfg session frame).binding = session.binding ∧
      (pushReplay cfg session frame).bindings = session.bindings := by
  unfold pushReplay
  dsimp only
  split <;> exact ⟨rfl, rfl⟩

/-- The fresh binding takes every missed frame and then RESUMED: neither the replay nor the last
frame can find its queue full. -/
theorem resumed_queue (moment : Moment)
    {resumed : LogicalSession} (accepted : resumeLocked cfg session request moment = .ok resumed) :
    resumed.binding = some (session.bindingEpoch + 1) ∧
    (resumed.bindings (session.bindingEpoch + 1)).send =
      (missed session request.sequence).map ReplayEntry.frame ++
        [dispatchFrame (session.sequence + 1) gatewayEventResumed emptyObject] ∧
    (resumed.bindings (session.bindingEpoch + 1)).send.length ≤
      (resumed.bindings (session.bindingEpoch + 1)).queueSize := by
  have fresh := rebindLocked_fresh cfg session request
  have same := sameReplay_rebindLocked cfg session request
  unfold resumeLocked at accepted
  split_ifs at accepted
  obtain rfl := Except.ok.inj accepted
  unfold appendDispatchLocked enqueueCurrent
  simp only [pushReplay_binding, rebindLocked_binding, cloneFrame_eq, same.sequence]
  rw [fresh, enqueue_open (by simp only [newBinding, length_map]; omega) rfl]
  simp only [LogicalSession.setBinding_bindings, pushReplay_binding, Function.update_self,
    length_append, length_map, length_singleton, newBinding]
  exact ⟨(pushReplay_binding cfg _ _).1, trivial, le_max_right _ _⟩

end

/-- In every run of a session the replay buffer holds exactly the frames after both marks, in order
and within the limit. A resumption is accepted exactly when the frames after the requested number
are all still there, and then the fresh binding holds these frames followed by RESUMED, which takes
the next number. -/
theorem resume_replays_exact_suffix (cfg : NodeConfig) (id : String) (userID authSessionID : ℤ)
    (connectionID gatewayID gatewayGeneration : String) (guilds : Finset ℤ)
    (events : List SessionEvent) :
    let start := newSession cfg id userID authSessionID connectionID gatewayID gatewayGeneration guilds
    let session := (events.foldl (stepLogged cfg) (start, [])).1
    let log := (events.foldl (stepLogged cfg) (start, [])).2
    let low := max session.replayFloor session.ackedSequence
    log.map ConnectResponse.sequence = List.range' 1 session.sequence ∧
    session.replay = (log.drop low).map entryOf ∧
    session.replay.map ReplayEntry.sequence = List.range' (low + 1) (session.sequence - low) ∧
    session.replay.length ≤ cfg.replayLimit ∧
    ∀ request moment,
      match resumeLocked cfg session request moment with
      | .error _ => request.sequence < low ∨ session.sequence < request.sequence
      | .ok resumed =>
        low ≤ request.sequence ∧ request.sequence ≤ session.sequence ∧
        resumed.binding = some (session.bindingEpoch + 1) ∧
        (resumed.bindings (session.bindingEpoch + 1)).send = log.drop request.sequence ++
          [dispatchFrame (session.sequence + 1) gatewayEventResumed emptyObject] ∧
        (resumed.bindings (session.bindingEpoch + 1)).send.length ≤
          (resumed.bindings (session.bindingEpoch + 1)).queueSize := by
  intro start session log low
  obtain ⟨l, same, represents⟩ : Tracks cfg (session, log) :=
    tracks_run cfg (tracks_newSession cfg id userID authSessionID connectionID gatewayID
      gatewayGeneration guilds) events
  change l.log = log at same
  have mark : l.low = low := represents.low
  have length : session.replay.length = session.sequence - low := by
    rw [represents.replay, List.length_map, l.length_retained, represents.sequence, mark]
  refine ⟨?_, ?_, ?_, ?_, ?_⟩
  · rw [← same, represents.sequence]
    exact represents.numbers
  · rw [represents.replay, RetainedLog.retained, same, mark]
  · rw [← length, ← mark, Nat.add_comm]
    exact represents.numbered_replay
  · rw [represents.replay, List.length_map]
    exact represents.bounded
  · intro request moment
    cases outcome : resumeLocked cfg session request moment with
    | error status =>
      unfold resumeLocked at outcome
      split_ifs at outcome with ahead expired
      · exact .inr ahead
      · exact .inl (lt_max_iff.mpr expired)
    | ok resumed =>
      have served : low ≤ request.sequence ∧ request.sequence ≤ session.sequence := by
        unfold resumeLocked at outcome
        split_ifs at outcome with ahead expired
        simp only [not_or, not_lt] at ahead expired
        exact ⟨max_le expired.1 expired.2, ahead⟩
      obtain ⟨bound, queue, room⟩ := resumed_queue cfg session request moment outcome
      refine ⟨served.1, served.2, bound, ?_, room⟩
      rw [queue, represents.missed_eq ⟨mark ▸ served.1, represents.sequence ▸ served.2⟩, List.map_map,
        same]
      congr 1
      exact List.map_id _

end Cordis.Session
