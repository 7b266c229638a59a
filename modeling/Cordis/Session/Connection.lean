import Cordis.Session.Registry
import Cordis.Session.Replay

/-! # Connect calls, their receivers, and the cleanup of detached sessions

A `Connect` call identifies a new session or resumes a registered one, then pumps the session's
binding to the gateway until the stream or the binding ends. A second goroutine receives the
gateway's frames. One background goroutine removes the sessions that have stayed detached for
`ResumeTTL`. Each of them is a program counter here; between two of its sections everybody else may
move. Dispatches, checkpoints and drain notices reach a session at any time.

What a call does before it holds a session, and the remote calls whose results only decide how it
goes on, leave no trace in this state. `doomed` collects the sessions that the cleanup or a client
that will not come back has condemned; it is for stating properties and no step reads it.
-/

namespace Cordis.Session

/-- A `Connect` call that holds a session. -/
inductive Call where
  /-- `identify` after `addSession`. -/
  | initializing (session : SessionRef)
  /-- `identify` on an error exit, before `removeSession`. -/
  | failing (session : SessionRef)
  /-- `identify` on an error exit, between the two sections of `removeSession`. -/
  | removing (session : SessionRef) (guildIDs : Finset ℤ)
  /-- `resume` after it has looked up the session. -/
  | resuming (session : SessionRef) (request : ResumeRequest)
  | authenticated (session : SessionRef) (request : ResumeRequest)
  /-- `resume` after it has installed its binding, before `refreshOwner`. -/
  | rebound (session : SessionRef) (binding : ℕ)
  /-- `resume` before `refreshPresence`. -/
  | ownerRefreshed (session : SessionRef) (binding : ℕ)
  /-- `identify` or `resume` has returned the session. -/
  | connected (session : SessionRef)
  /-- The stream loop on the binding it has read. -/
  | pumping (session : SessionRef) (binding : ℕ)
  /-- `detach` between its section and the close of the binding. -/
  | closing (session : SessionRef) (binding : ℕ)

def Call.session : Call → SessionRef
  | .initializing session | .failing session | .removing session _ | .resuming session _
  | .authenticated session _ | .rebound session _ | .ownerRefreshed session _ | .connected session
  | .pumping session _ | .closing session _ => session

/-- The binding a resumption has installed and not yet handed to the stream loop. -/
def Call.installed : Call → Option ℕ
  | .rebound _ binding | .ownerRefreshed _ binding => some binding
  | _ => none

/-- The goroutine that runs `receiveFrames` for a call. -/
inductive Receiver where
  | running (session : SessionRef) (binding : ℕ)
  /-- `detach` between its section and the close of the binding. -/
  | closing (session : SessionRef) (binding : ℕ) (resumable : Bool)
  /-- A detach that is not resumable, before `removeSession`. -/
  | leaving (session : SessionRef)
  | removing (session : SessionRef) (guildIDs : Finset ℤ)

/-- The background goroutine of `cleanupDetached`. -/
inductive Cleanup where
  | idle
  | scanning (now : ℕ) (rest : List SessionRef)
  /-- The session was found expired and `removeSession` comes next. -/
  | expired (now : ℕ) (session : SessionRef) (rest : List SessionRef)
  | removing (now : ℕ) (session : SessionRef) (guildIDs : Finset ℤ) (rest : List SessionRef)

/-- The cleanup has found the session expired and has not finished removing it. -/
def Cleanup.Condemns (session : SessionRef) : Cleanup → Prop
  | .expired _ found _ => found = session
  | .removing _ found _ _ => found = session
  | _ => False

instance (session : SessionRef) : ∀ cleanup : Cleanup, Decidable (cleanup.Condemns session)
  | .expired _ found _ => inferInstanceAs (Decidable (found = session))
  | .removing _ found _ _ => inferInstanceAs (Decidable (found = session))
  | .idle | .scanning .. => isFalse not_false

structure ConnectionNode where
  reg : Registry := {}
  calls : Pool ℕ Call := Pool.empty
  receivers : Pool ℕ Receiver := Pool.empty
  cleanup : Cleanup := .idle
  doomed : Finset SessionRef := ∅

/-- The authenticator's answer to a credential. -/
structure Authentication where
  ok : Bool
  userID : ℤ
  sessionID : ℤ
deriving DecidableEq, Repr

inductive ConnectionEvent where
  | identify (call : ℕ) (ref : SessionRef) (identity : Identity) (guilds : Finset ℤ)
  | identifyFail (call : ℕ)
  | ready (call : ℕ) (payload : Bytes) (moments : ℕ → Moment)
  | unbind (call : ℕ)
  | unregister (call : ℕ)
  | lookup (call : ℕ) (sessionID : String) (request : ResumeRequest)
  | authenticate (call : ℕ) (response : Except Status Authentication)
  | rebind (call : ℕ) (moment : Moment)
  | refreshOwner (call : ℕ) (failure : Option Status)
  | refreshPresence (call : ℕ) (failure : Option Status)
  | readCurrent (call : ℕ)
  | send (call : ℕ)
  | detach (call now : ℕ)
  | close (call : ℕ)
  | bindingDone (call : ℕ)
  | heartbeat (call sequence : ℕ)
  | heartbeatAck (call : ℕ) (sendFirst : Bool)
  | detachFrame (call : ℕ) (resumable : Bool) (now : ℕ)
  | receiverClose (call : ℕ)
  | receiverUnbind (call : ℕ)
  | receiverUnregister (call : ℕ)
  | receiverStop (call : ℕ)
  | dispatch (ref : SessionRef) (eventType : String) (payload : Bytes) (moment : Moment)
  | checkpoint (ref : SessionRef) (gatewayID gatewayGeneration : String)
      (checkpoint : GatewayConnectionCheckpoint)
  | drain (ref : SessionRef) (sendFirst : Bool)
  | cleanupScan (now : ℕ) (order : List SessionRef)
  | cleanupTest
  | cleanupUnbind
  | cleanupUnregister

/-- A session that has stayed without a binding for `ResumeTTL`. -/
def expired (cfg : NodeConfig) (now : ℕ) (session : LogicalSession) : Bool :=
  session.binding.isNone &&
    match session.detachedAt with
    | none => false
    | some detachedAt => decide ((now : ℤ) - detachedAt ≥ cfg.resumeTTL)

namespace ConnectionNode

variable (cfg : NodeConfig) (node : ConnectionNode)

/-- Run a section of one session. -/
def onSession (ref : SessionRef) (event : SessionEvent) : ConnectionNode :=
  { node with reg := node.reg.modify ref fun session => stepSession cfg session event }

def setCall (id : ℕ) (call : Call) : ConnectionNode := { node with calls := node.calls.set id call }

def endCall (id : ℕ) : ConnectionNode := { node with calls := node.calls.drop id }

def setReceiver (id : ℕ) (receiver : Receiver) : ConnectionNode :=
  { node with receivers := node.receivers.set id receiver }

def endReceiver (id : ℕ) : ConnectionNode := { node with receivers := node.receivers.drop id }

def doom (ref : SessionRef) : ConnectionNode := { node with doomed := insert ref node.doomed }

/-- The session of a credential, when the authenticator vouches for it. -/
def accepts (session : LogicalSession) : Except Status Authentication → Bool
  | .error _ => false
  | .ok auth => auth.ok && decide (auth.userID = session.userID) &&
      decide (auth.sessionID = session.authSessionID)

def stepIdentify : ConnectionEvent → Option ConnectionNode
  | .identify id ref identity guilds =>
      match node.calls id, node.receivers id with
      | none, none =>
          -- addresses are fresh, and ids are random and not reused while registered
          if node.reg.heap ref = none ∧ node.reg.sessions identity.sessionID = none then
            some ({ node with reg := node.reg.addSession ref (identity.session cfg guilds) }.setCall id
              (.initializing ref))
          else none
      | _, _ => none
  | .identifyFail id =>
      match node.calls id with
      | some (.initializing ref) => some (node.setCall id (.failing ref))
      | _ => none
  | .ready id payload moments =>
      match node.calls id with
      | some (.initializing ref) => do
          let session ← node.reg.heap ref
          match readyLocked cfg session payload moments with
          | .ok _ => some ((node.onSession cfg ref (.ready payload moments)).setCall id (.connected ref))
          | .error _ => some (node.setCall id (.failing ref))
      | _ => none
  | .unbind id =>
      match node.calls id with
      | some (.failing ref) =>
          some ((node.onSession cfg ref .remove).setCall id (.removing ref (node.reg.guildsOf ref)))
      | _ => none
  | .unregister id =>
      match node.calls id with
      | some (.removing ref guildIDs) =>
          some ({ node with reg := node.reg.unregister ref guildIDs }.endCall id)
      | _ => none
  | _ => none

def stepResume : ConnectionEvent → Option ConnectionNode
  | .lookup id sessionID request =>
      match node.calls id, node.receivers id with
      | none, none => (node.reg.sessions sessionID).map fun ref => node.setCall id (.resuming ref request)
      | _, _ => none
  | .authenticate id response =>
      match node.calls id with
      | some (.resuming ref request) => do
          let session ← node.reg.heap ref
          if accepts session response then some (node.setCall id (.authenticated ref request))
          else some (node.endCall id)
      | _ => none
  | .rebind id moment =>
      match node.calls id with
      | some (.authenticated ref request) => do
          let session ← node.reg.heap ref
          match resumeLocked cfg session request moment with
          | .ok resumed =>
              some ((node.onSession cfg ref (.resume request moment)).setCall id
                (.rebound ref resumed.bindingEpoch))
          | .error _ => some (node.endCall id)
      | _ => none
  | .refreshOwner id failure =>
      match node.calls id with
      | some (.rebound ref binding) =>
          match failure with
          | none => some (node.setCall id (.ownerRefreshed ref binding))
          | some _ => some (node.endCall id)
      | _ => none
  | .refreshPresence id failure =>
      match node.calls id with
      | some (.ownerRefreshed ref _) =>
          match failure with
          | none => some (node.setCall id (.connected ref))
          | some _ => some (node.endCall id)
      | _ => none
  | _ => none

/-- The stream loop of `Connect`. -/
def stepStream : ConnectionEvent → Option ConnectionNode
  | .readCurrent id =>
      match node.calls id with
      | some (.connected ref) => do
          let session ← node.reg.heap ref
          match session.binding with
          | none => some (node.endCall id)
          | some binding => some ((node.setCall id (.pumping ref binding)).setReceiver id
              (.running ref binding))
      | _ => none
  | .send id =>
      match node.calls id with
      | some (.pumping ref binding) => some (node.onSession cfg ref (.send binding))
      | _ => none
  | .detach id now =>
      match node.calls id with
      | some (.pumping ref binding) => do
          let session ← node.reg.heap ref
          match detachLocked session binding now with
          | some _ =>
              some ((node.onSession cfg ref (.detach binding now)).setCall id (.closing ref binding))
          | none => some (node.endCall id)
      | _ => none
  | .close id =>
      match node.calls id with
      | some (.closing ref binding) => some ((node.onSession cfg ref (.close binding)).endCall id)
      | _ => none
  | .bindingDone id =>
      match node.calls id with
      | some (.pumping ref binding) => do
          let session ← node.reg.heap ref
          if (session.bindings binding).done then some (node.endCall id) else none
      | _ => none
  | _ => none

/-- `receiveFrames` and the `detach` it may end with. -/
def stepReceiver : ConnectionEvent → Option ConnectionNode
  | .heartbeat id sequence =>
      match node.receivers id with
      | some (.running ref binding) => do
          let session ← node.reg.heap ref
          match Session.heartbeat session binding sequence with
          | .ok _ => some (node.onSession cfg ref (.heartbeat binding sequence))
          | .error _ => some (node.endReceiver id)
      | _ => none
  | .heartbeatAck id sendFirst =>
      match node.receivers id with
      | some (.running ref binding) => some (node.onSession cfg ref (.heartbeatAck binding sendFirst))
      | _ => none
  | .detachFrame id resumable now =>
      match node.receivers id with
      | some (.running ref binding) => do
          let session ← node.reg.heap ref
          match detachLocked session binding now with
          | some _ =>
              let detached := (node.onSession cfg ref (.detach binding now)).setReceiver id
                (.closing ref binding resumable)
              some (if resumable then detached else detached.doom ref)
          | none => some (node.endReceiver id)
      | _ => none
  | .receiverClose id =>
      match node.receivers id with
      | some (.closing ref binding resumable) =>
          let closed := node.onSession cfg ref (.close binding)
          some (if resumable then closed.endReceiver id else closed.setReceiver id (.leaving ref))
      | _ => none
  | .receiverUnbind id =>
      match node.receivers id with
      | some (.leaving ref) =>
          some ((node.onSession cfg ref .remove).setReceiver id (.removing ref (node.reg.guildsOf ref)))
      | _ => none
  | .receiverUnregister id =>
      match node.receivers id with
      | some (.removing ref guildIDs) =>
          some ({ node with reg := node.reg.unregister ref guildIDs }.endReceiver id)
      | _ => none
  | .receiverStop id =>
      match node.receivers id with
      | some (.running _ _) => some (node.endReceiver id)
      | _ => none
  | _ => none

/-- Sections that reach a session from the other endpoints of the service. -/
def stepServer : ConnectionEvent → Option ConnectionNode
  | .dispatch ref eventType payload moment =>
      some (node.onSession cfg ref (.dispatch eventType payload moment))
  | .checkpoint ref gatewayID gatewayGeneration checkpoint =>
      some (node.onSession cfg ref (.checkpoint gatewayID gatewayGeneration checkpoint))
  | .drain ref sendFirst => some (node.onSession cfg ref (.drain sendFirst))
  | _ => none

/-- `cleanupDetached`; a scan lists registered sessions, in any order. -/
def stepCleanup : ConnectionEvent → Option ConnectionNode
  | .cleanupScan now order =>
      match node.cleanup with
      | .idle =>
          if ∀ ref ∈ order, (node.reg.live ref).isSome then
            some { node with cleanup := .scanning now order }
          else none
      | .scanning _ [] =>
          if ∀ ref ∈ order, (node.reg.live ref).isSome then
            some { node with cleanup := .scanning now order }
          else none
      | _ => none
  | .cleanupTest =>
      match node.cleanup with
      | .scanning now (ref :: rest) => do
          let session ← node.reg.heap ref
          if expired cfg now session then
            some { node.doom ref with cleanup := .expired now ref rest }
          else some { node with cleanup := .scanning now rest }
      | _ => none
  | .cleanupUnbind =>
      match node.cleanup with
      | .expired now ref rest =>
          some { node.onSession cfg ref .remove with
            cleanup := .removing now ref (node.reg.guildsOf ref) rest }
      | _ => none
  | .cleanupUnregister =>
      match node.cleanup with
      | .removing now ref guildIDs rest =>
          some { node with reg := node.reg.unregister ref guildIDs, cleanup := .scanning now rest }
      | _ => none
  | _ => none

def step (event : ConnectionEvent) : Option ConnectionNode :=
  match event with
  | .identify .. | .identifyFail .. | .ready .. | .unbind .. | .unregister .. => node.stepIdentify cfg event
  | .lookup .. | .authenticate .. | .rebind .. | .refreshOwner .. | .refreshPresence .. =>
      node.stepResume cfg event
  | .readCurrent .. | .send .. | .detach .. | .close .. | .bindingDone .. => node.stepStream cfg event
  | .heartbeat .. | .heartbeatAck .. | .detachFrame .. | .receiverClose .. | .receiverUnbind ..
  | .receiverUnregister .. | .receiverStop .. => node.stepReceiver cfg event
  | .dispatch .. | .checkpoint .. | .drain .. => node.stepServer cfg event
  | .cleanupScan .. | .cleanupTest | .cleanupUnbind | .cleanupUnregister => node.stepCleanup cfg event

end ConnectionNode

def connectionMachine (cfg : NodeConfig) : Machine ConnectionNode ConnectionEvent where
  step := ConnectionNode.step cfg

end Cordis.Session
