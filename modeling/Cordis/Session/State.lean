import Mathlib.Data.Finset.Basic

/-! # Logical sessions, their bindings, and the critical sections on one session

A logical session outlives the stream that serves it. The stream end is a binding: a bounded queue
of outgoing frames and a close signal. Connect loops keep a pointer to the binding they pump after
the session has moved on to another one, so the bindings of a session live in a table of their own
and the session holds a pointer into it. A pointer is the binding's epoch, which the code never
reuses within a session.

Every function here is what the source does while it holds `session.mu`, or an atomic operation on
one binding. Sequence numbers, epochs, and queue lengths are counters and are modelled by natural
numbers. A `Moment` is what the clock and the scheduler contribute to such a section: the time it
reads, and which ready case a `select` takes.
-/

namespace Cordis.Session

abbrev Bytes := List UInt8

/-- Status codes the session service answers with. -/
inductive Code where
  | invalidArgument | notFound | failedPrecondition | unauthenticated | permissionDenied
  | aborted | resourceExhausted | unavailable | internal
deriving DecidableEq, Repr

structure Status where
  code : Code
  message : String
deriving DecidableEq, Repr

/-- The limits of a node that the modelled code reads, as configured. -/
structure NodeConfig where
  sessionResumeSeconds : ℤ := 120
  maxReplayEvents : ℤ := 2048
  maxPendingDispatches : ℤ := 1024
  maxPendingDispatchBytes : ℤ := 16777216
  bindingQueueSize : ℤ := 4096
  maxVisibilityGuilds : ℤ := 100
  maxVisibilityChannels : ℤ := 500
deriving DecidableEq, Repr

namespace NodeConfig

/-- A configured positive bound, or the default in its place. -/
def orDefault (configured : ℤ) (default : ℕ) : ℕ :=
  if configured ≤ 0 then default else configured.toNat

/-- Time is counted in nanoseconds. -/
def second : ℕ := 1000000000

variable (c : NodeConfig)

def resumeTTL : ℕ := orDefault c.sessionResumeSeconds 120 * second
def replayLimit : ℕ := orDefault c.maxReplayEvents 2048
def queueSize : ℕ := orDefault c.bindingQueueSize 4096
def visibilityGuildLimit : ℕ := orDefault c.maxVisibilityGuilds 100
def visibilityChannelLimit : ℕ := orDefault c.maxVisibilityChannels 500

/-- One replay slot and one queue slot stay free for READY. -/
def pendingDispatchLimit : ℕ :=
  min (orDefault c.maxPendingDispatches 1024) (min (c.replayLimit - 1) (c.queueSize - 1))

def pendingDispatchByteLimit : ℕ := orDefault c.maxPendingDispatchBytes 16777216

end NodeConfig

/-- One frame of the stream to the gateway. The session id and the binding epoch are stamped on a
frame only when it is sent and are not part of it before. -/
structure ConnectResponse where
  opcode : ℕ
  sequence : ℕ := 0
  type : String := ""
  jsonPayload : Bytes := []
  closeCode : ℕ := 0
  closeReason : String := ""
deriving DecidableEq, Repr

def opDispatch : ℕ := 0
def opHeartbeatAck : ℕ := 11
def opInvalid : ℕ := 9

def gatewayEventReady : String := "ready"
def gatewayEventResumed : String := "resumed"

/-- The bytes of the empty JSON object. -/
def emptyObject : Bytes := [123, 125]

def cloneFrame (frame : ConnectResponse) : ConnectResponse where
  opcode := frame.opcode
  sequence := frame.sequence
  type := frame.type
  jsonPayload := frame.jsonPayload
  closeCode := frame.closeCode
  closeReason := frame.closeReason

@[simp] theorem cloneFrame_eq (frame : ConnectResponse) : cloneFrame frame = frame := rfl

structure ReplayEntry where
  sequence : ℕ
  frame : ConnectResponse
deriving DecidableEq, Repr

structure PendingDispatch where
  eventType : String
  payload : Bytes
deriving DecidableEq, Repr

/-- `send` holds what is queued in the channel, `queueSize` is its capacity, and `done` tells
whether the close signal has been given. -/
structure Binding where
  id : String
  epoch : ℕ
  send : List ConnectResponse := []
  queueSize : ℕ
  done : Bool := false
deriving DecidableEq, Repr

structure LogicalSession where
  id : String
  userID : ℤ
  authSessionID : ℤ
  gatewayID : String
  gatewayGeneration : String
  sequence : ℕ := 0
  ackedSequence : ℕ := 0
  replay : List ReplayEntry := []
  replayFloor : ℕ := 0
  guilds : Finset ℤ := ∅
  binding : Option ℕ := none
  bindingEpoch : ℕ := 0
  detachedAt : Option ℕ := none
  initializing : Bool := false
  pendingDispatches : List PendingDispatch := []
  pendingDispatchBytes : ℕ := 0
  pendingDispatchOverflow : Bool := false
  bindings : ℕ → Binding

structure Moment where
  now : ℕ
  sendFirst : Bool := true
deriving DecidableEq, Repr

namespace LogicalSession

variable (session : LogicalSession) (pointer : ℕ)

def setBinding (binding : Binding) : LogicalSession :=
  { session with bindings := Function.update session.bindings pointer binding }

/-- `binding.close()`; closing twice is harmless. -/
def closeBinding : LogicalSession :=
  session.setBinding pointer { session.bindings pointer with done := true }

@[simp] theorem setBinding_bindings (binding : Binding) :
    (session.setBinding pointer binding).bindings = Function.update session.bindings pointer binding :=
  rfl

end LogicalSession

def newBinding (id : String) (epoch queueSize : ℕ) : Binding where
  id := id
  epoch := epoch
  queueSize := queueSize

/-- A session as `identify` creates it. -/
def newSession (cfg : NodeConfig) (id : String) (userID authSessionID : ℤ)
    (connectionID gatewayID gatewayGeneration : String) (guilds : Finset ℤ) : LogicalSession where
  id := id
  userID := userID
  authSessionID := authSessionID
  gatewayID := gatewayID
  gatewayGeneration := gatewayGeneration
  guilds := guilds
  binding := some 1
  bindingEpoch := 1
  initializing := true
  bindings := fun _ => newBinding connectionID 1 cfg.queueSize

/-- Whom a session is created for, and over which connection. -/
structure Identity where
  sessionID : String
  userID : ℤ
  authSessionID : ℤ
  connectionID : String
  gatewayID : String
  gatewayGeneration : String
deriving DecidableEq, Repr

/-- The session `identify` creates. -/
def Identity.session (cfg : NodeConfig) (identity : Identity) (guilds : Finset ℤ) : LogicalSession :=
  newSession cfg identity.sessionID identity.userID identity.authSessionID identity.connectionID
    identity.gatewayID identity.gatewayGeneration guilds

inductive EnqueueError where
  | closed
  | full
deriving DecidableEq, Repr

/-- The `select` of the source: either ready case may be taken, and the default only when neither
the channel has room nor the binding is closed. -/
def enqueue (binding : Binding) (frame : ConnectResponse) (sendFirst : Bool) :
    Except EnqueueError Binding :=
  let room := decide (binding.send.length < binding.queueSize)
  if room && (sendFirst || !binding.done) then .ok { binding with send := binding.send ++ [frame] }
  else if binding.done then .error .closed
  else .error .full

/-- An open binding with room takes the frame, whatever the scheduler prefers. -/
theorem enqueue_open {binding : Binding} {frame : ConnectResponse} {sendFirst : Bool}
    (room : binding.send.length < binding.queueSize) (alive : binding.done = false) :
    enqueue binding frame sendFirst = .ok { binding with send := binding.send ++ [frame] } := by
  simp [enqueue, room, alive]

def dispatchFrame (sequence : ℕ) (eventType : String) (payload : Bytes) : ConnectResponse where
  opcode := opDispatch
  sequence := sequence
  type := eventType
  jsonPayload := payload

variable (cfg : NodeConfig) (session : LogicalSession)

/-- Number the next frame and append it to the replay buffer, evicting the oldest entries beyond
the limit and raising the floor to the last evicted number. -/
def pushReplay (frame : ConnectResponse) : LogicalSession :=
  let replay := session.replay ++ [⟨session.sequence + 1, frame⟩]
  if replay.length > cfg.replayLimit then
    let overflow := replay.length - cfg.replayLimit
    { session with
      sequence := session.sequence + 1
      replayFloor := (replay[overflow - 1]?.map ReplayEntry.sequence).getD session.replayFloor
      replay := replay.drop overflow }
  else { session with sequence := session.sequence + 1, replay := replay }

/-- Hand a frame to the current binding, if any; a binding that does not take it is closed and
the session is detached. -/
def enqueueCurrent (frame : ConnectResponse) (moment : Moment) : LogicalSession :=
  match session.binding with
  | none => session
  | some pointer =>
    match enqueue (session.bindings pointer) (cloneFrame frame) moment.sendFirst with
    | .ok queued => session.setBinding pointer queued
    | .error _ => { session.closeBinding pointer with binding := none, detachedAt := some moment.now }

def appendDispatchLocked (eventType : String) (payload : Bytes) (moment : Moment) : LogicalSession :=
  let frame := dispatchFrame (session.sequence + 1) eventType payload
  enqueueCurrent (pushReplay cfg session frame) frame moment

/-- While READY is being assembled events are buffered up to the count and byte limits; the first
event beyond them poisons the buffer. The result tells whether the event was accepted. -/
def dispatchSession (eventType : String) (payload : Bytes) (moment : Moment) : LogicalSession × Bool :=
  if session.initializing then
    if session.pendingDispatchOverflow then (session, false)
    else
      let eventBytes := eventType.utf8ByteSize + payload.length
      if session.pendingDispatches.length ≥ cfg.pendingDispatchLimit ∨
          (eventBytes : ℤ) > (cfg.pendingDispatchByteLimit : ℤ) - session.pendingDispatchBytes then
        ({ session with
            pendingDispatchOverflow := true
            pendingDispatches := []
            pendingDispatchBytes := 0 }, false)
      else
        ({ session with
            pendingDispatches := session.pendingDispatches ++ [⟨eventType, payload⟩]
            pendingDispatchBytes := session.pendingDispatchBytes + eventBytes }, true)
  else (appendDispatchLocked cfg session eventType payload moment, true)

/-- The last critical section of `identify`: READY, then every buffered event. -/
def readyLocked (ready : Bytes) (moments : ℕ → Moment) : Except Status LogicalSession :=
  if session.pendingDispatchOverflow then
    .error ⟨.resourceExhausted, "ready event buffer overflow"⟩
  else
    let greeted := appendDispatchLocked cfg session gatewayEventReady ready (moments 0)
    let flushed := session.pendingDispatches.zipIdx.foldl
      (fun current item =>
        appendDispatchLocked cfg current item.1.eventType item.1.payload (moments (item.2 + 1)))
      greeted
    .ok { flushed with pendingDispatches := [], pendingDispatchBytes := 0, initializing := false }

def acknowledgeLocked (sequence : ℕ) : LogicalSession :=
  if sequence ≤ session.ackedSequence then session
  else
    { session with
      ackedSequence := sequence
      replay := session.replay.dropWhile fun entry => decide (entry.sequence ≤ sequence) }

/-- The critical section of `heartbeat`. The acknowledgement frame is enqueued after it, on the
binding the heartbeat came from. -/
def heartbeat (binding sequence : ℕ) : Except Status LogicalSession :=
  if session.binding ≠ some binding then .error ⟨.aborted, "stale session binding"⟩
  else if sequence > session.sequence then
    .error ⟨.invalidArgument, "heartbeat sequence is ahead of session"⟩
  else .ok (acknowledgeLocked session sequence)

def heartbeatAck : ConnectResponse where
  opcode := opHeartbeatAck
  jsonPayload := [110, 117, 108, 108]

structure GatewayConnectionCheckpoint where
  sessionID : String
  connectionID : String
  bindingEpoch : ℕ
  acknowledgedSequence : ℕ
deriving DecidableEq, Repr

/-- One checkpoint of `SyncGatewayConnections`; `none` when it no longer matches the binding. -/
def applyCheckpoint (gatewayID gatewayGeneration : String)
    (checkpoint : GatewayConnectionCheckpoint) : Option LogicalSession :=
  match session.binding with
  | none => none
  | some pointer =>
    let binding := session.bindings pointer
    if binding.id ≠ checkpoint.connectionID ∨ binding.epoch ≠ checkpoint.bindingEpoch ∨
        session.gatewayID ≠ gatewayID ∨ session.gatewayGeneration ≠ gatewayGeneration ∨
        checkpoint.acknowledgedSequence > session.sequence then none
    else some (acknowledgeLocked session checkpoint.acknowledgedSequence)

/-- The critical section of `detach`; `none` when another binding has taken over. The binding is
closed after the section. -/
def detachLocked (binding now : ℕ) : Option LogicalSession :=
  if session.binding ≠ some binding then none
  else some { session with binding := none, detachedAt := some now }

/-- The first critical section of `removeSession`. -/
def unbindLocked : LogicalSession :=
  match session.binding with
  | none => session
  | some pointer => { session.closeBinding pointer with binding := none }

theorem unbindLocked_binding : (unbindLocked session).binding = none := by
  unfold unbindLocked
  split
  · assumption
  · rfl

theorem unbindLocked_id : (unbindLocked session).id = session.id := by
  unfold unbindLocked
  cases session.binding <;> rfl

theorem unbindLocked_userID : (unbindLocked session).userID = session.userID := by
  unfold unbindLocked
  cases session.binding <;> rfl

theorem unbindLocked_guilds : (unbindLocked session).guilds = session.guilds := by
  unfold unbindLocked
  cases session.binding <;> rfl

/-- What a gateway presents to rebind a session. -/
structure ResumeRequest where
  connectionID : String
  gatewayID : String
  gatewayGeneration : String
  sequence : ℕ
deriving DecidableEq, Repr

/-- The entries a client at the requested sequence has not seen. -/
def missed (sequence : ℕ) : List ReplayEntry :=
  session.replay.filter fun entry => decide (sequence < entry.sequence)

/-- Install a fresh binding that already holds the missed frames, and close the old one. -/
def rebindLocked (request : ResumeRequest) : LogicalSession :=
  let replayed := missed session request.sequence
  let epoch := session.bindingEpoch + 1
  let fresh := newBinding request.connectionID epoch (max cfg.queueSize (replayed.length + 1))
  let closed := match session.binding with
    | none => session
    | some old => session.closeBinding old
  { closed.setBinding epoch { fresh with send := replayed.map fun entry => cloneFrame entry.frame } with
    bindingEpoch := epoch
    binding := some epoch
    gatewayID := request.gatewayID
    gatewayGeneration := request.gatewayGeneration
    detachedAt := none }

/-- The critical section of `resume`: reject what the buffer cannot bridge, else rebind, replay,
and append RESUMED. -/
def resumeLocked (request : ResumeRequest) (moment : Moment) : Except Status LogicalSession :=
  if request.sequence > session.sequence then
    .error ⟨.failedPrecondition, "session is not resumable"⟩
  else if request.sequence < session.replayFloor ∨ request.sequence < session.ackedSequence then
    .error ⟨.failedPrecondition, "replay sequence expired"⟩
  else
    .ok (appendDispatchLocked cfg (rebindLocked cfg session request) gatewayEventResumed emptyObject
      moment)

end Cordis.Session
