import Cordis.Session.Detachment

/-! # The buffer of a session that waits for READY

Until READY is appended, dispatched events are buffered, and one event too many poisons the buffer
for good. Only `dispatch` and `ready` touch the buffer. So once an event was dispatched to a session
that waits for READY, it is in the buffer or the buffer is poisoned, and a READY that succeeds puts
everything buffered behind itself.
-/

namespace Cordis.Session

open List

namespace SameBuffer

theorem unbindLocked (session : LogicalSession) : SameBuffer session (unbindLocked session) := by
  unfold Session.unbindLocked
  split <;> exact ⟨rfl, rfl, rfl⟩

theorem rebindLocked (cfg : NodeConfig) (session : LogicalSession) (request : ResumeRequest) :
    SameBuffer session (rebindLocked cfg session request) := by
  unfold Session.rebindLocked
  cases session.binding <;> exact ⟨rfl, rfl, rfl⟩

theorem resumeLocked (cfg : NodeConfig) (session : LogicalSession) (request : ResumeRequest) (moment : Moment) :
    SameBuffer session ((resumeLocked cfg session request moment).toOption.getD session) := by
  unfold Session.resumeLocked
  split_ifs
  · exact ⟨rfl, rfl, rfl⟩
  · exact ⟨rfl, rfl, rfl⟩
  · exact (rebindLocked cfg session request).trans (Leaves.appendDispatchLocked ..).toSameBuffer

end SameBuffer

/-- The event waits in the buffer, or the buffer is poisoned. -/
def Buffers (session : LogicalSession) (item : PendingDispatch) : Prop :=
  session.pendingDispatchOverflow = true ∨ item ∈ session.pendingDispatches

variable {item : PendingDispatch} {frames : List ConnectResponse} {ready : Bytes}

theorem Buffers.congr {before after : LogicalSession}
    (buffers : Buffers before item) (same : SameBuffer before after) : Buffers after item := by
  rw [Buffers, same.pendingDispatchOverflow, same.pendingDispatches]
  exact buffers

variable {cfg : NodeConfig} {session : LogicalSession}

variable (cfg session)

/-- A dispatch keeps what is buffered, and buffers its own event while READY is awaited. -/
theorem dispatchSession_buffer (eventType : String) (payload : Bytes) (moment : Moment) :
    (dispatchSession cfg session eventType payload moment).1.initializing = session.initializing ∧
    (∀ item, Buffers session item → Buffers (dispatchSession cfg session eventType payload moment).1 item) ∧
    (session.initializing = true →
      Buffers (dispatchSession cfg session eventType payload moment).1 ⟨eventType, payload⟩) := by
  unfold dispatchSession
  dsimp only
  split_ifs with waiting poisoned full
  · exact ⟨rfl, fun _ buffers => buffers, fun _ => .inl poisoned⟩
  · exact ⟨rfl, fun _ _ => .inl rfl, fun _ => .inl rfl⟩
  · refine ⟨rfl, fun item buffers => ?_, fun _ => .inr (mem_append_right _ (mem_singleton_self _))⟩
    rcases buffers with overflow | member
    · exact (poisoned overflow).elim
    · exact .inr (mem_append_left _ member)
  · have same := Leaves.appendDispatchLocked cfg session eventType payload moment
    exact ⟨same.initializing, fun _ buffers => buffers.congr same.toSameBuffer, fun initializing => (waiting initializing).elim⟩

/-- Every section but READY keeps a session waiting, or not waiting, and keeps what is buffered. -/
theorem stepSession_buffer {ran : SessionEvent} (ordinary : ∀ payload moments, ran ≠ .ready payload moments) :
    (stepSession cfg session ran).initializing = session.initializing ∧
      ∀ item, Buffers session item → Buffers (stepSession cfg session ran) item := by
  have same : SameBuffer session (stepSession cfg session ran) →
      (stepSession cfg session ran).initializing = session.initializing ∧
        ∀ item, Buffers session item → Buffers (stepSession cfg session ran) item :=
    fun same => ⟨same.initializing, fun _ buffers => buffers.congr same⟩
  cases ran with
  | dispatch eventType payload moment =>
    obtain ⟨waiting, kept, _⟩ := dispatchSession_buffer cfg session eventType payload moment
    exact ⟨waiting, kept⟩
  | ready payload moments => exact (ordinary payload moments rfl).elim
  | heartbeat | heartbeatAck | checkpoint | detach | send | drain =>
    exact same (Leaves.toSameBuffer (leaves_step cfg session trivial))
  | close binding => exact same ⟨rfl, rfl, rfl⟩
  | resume request moment => exact same (.resumeLocked ..)
  | remove => exact same (.unbindLocked session)

variable {cfg session}

/-- READY ends the wait, unless the buffer is poisoned. -/
theorem stepSession_ready (sound : session.pendingDispatchOverflow = false) (payload : Bytes)
    (moments : ℕ → Moment) : (stepSession cfg session (.ready payload moments)).initializing = false := by
  simp [stepSession, readyLocked, sound, Except.toOption]

/-- An event in the client's log, after the READY with the given payload. -/
def AfterReady (frames : List ConnectResponse) (ready : Bytes) (item : PendingDispatch) : Prop :=
  ∃ before greeting after, frames = before ++ greeting :: after ∧
    greeting.type = gatewayEventReady ∧ greeting.jsonPayload = ready ∧
    ∃ frame ∈ after, frame.type = item.eventType ∧ frame.jsonPayload = item.payload

theorem AfterReady.append (received : AfterReady frames ready item) (more : List ConnectResponse) :
    AfterReady (frames ++ more) ready item := by
  obtain ⟨before, greeting, after, rfl, type, payload, frame, member, same⟩ := received
  refine ⟨before, greeting, after ++ more, by simp, type, payload, frame, ?_, same⟩
  exact mem_append_left _ member

/-- The READY with the given payload is in the log. -/
def Greeted (frames : List ConnectResponse) (ready : Bytes) : Prop :=
  ∃ greeting ∈ frames, greeting.type = gatewayEventReady ∧ greeting.jsonPayload = ready

theorem Greeted.append (greeted : Greeted frames ready)
    (more : List ConnectResponse) : Greeted (frames ++ more) ready := by
  obtain ⟨greeting, member, same⟩ := greeted
  exact ⟨greeting, mem_append_left _ member, same⟩

theorem mem_numberFrom (sequence : ℕ) {items : List PendingDispatch} (member : item ∈ items) :
    ∃ frame ∈ numberFrom sequence items, frame.type = item.eventType ∧ frame.jsonPayload = item.payload := by
  induction items generalizing sequence with
  | nil => cases member
  | cons head rest ih =>
    rw [numberFrom_cons]
    rcases mem_cons.mp member with rfl | later
    · exact ⟨_, mem_cons_self, rfl, rfl⟩
    · obtain ⟨frame, numbered, same⟩ := ih (sequence + 1) later
      exact ⟨frame, mem_cons_of_mem _ numbered, same⟩

/-- The frames READY adds: itself, and behind it everything that was buffered. -/
theorem owed_ready (cfg : NodeConfig) (sound : session.pendingDispatchOverflow = false) (payload : Bytes)
    (moments : ℕ → Moment) (frames : List ConnectResponse) :
    Greeted (frames ++ owed cfg session (.ready payload moments)) payload ∧
      ∀ item, Buffers session item →
        AfterReady (frames ++ owed cfg session (.ready payload moments)) payload item := by
  simp only [owed, sound, Bool.false_eq_true, ↓reduceIte]
  rw [numberFrom_cons]
  refine ⟨⟨_, mem_append_right _ mem_cons_self, rfl, rfl⟩, fun item buffers => ?_⟩
  rcases buffers with poisoned | member
  · cases sound.symm.trans poisoned
  · obtain ⟨frame, numbered, same⟩ := mem_numberFrom (session.sequence + 1) member
    exact ⟨frames, _, _, rfl, rfl, rfl, frame, numbered, same⟩

end Cordis.Session
