import Cordis.Session.CallStages
import Cordis.Session.DedupContents

/-! # What the node has on record of its requests

The histories of a node fit its state in every run: a running call was started by a request, and a
key in the deduplication store stands for a started request, or for a user under one of the two kinds
of events that users are served once. So a request that is taken for a repetition has been started
before.
-/

namespace Cordis.Session

open DispatchNode List

/-- Users are served once under the two kinds of keys for users only. -/
def DispatchCall.OnceKinds (call : DispatchCall) : Prop :=
  ∀ stage ∈ call.stages, ∀ kind, stage.gate = some (.once kind) → OnceKind kind

structure Recorded (dedup : DedupStore) (calls : Pool ℕ DispatchCall)
    (started : List (DispatchRoute × EventEnvelope)) : Prop where
  kinds : calls.All fun _ call => call.OnceKinds
  running : calls.All fun _ call => (call.route, call.event) ∈ started
  known : dedup.Only fun held =>
    OnceKind held.routeKind ∨ ∃ request ∈ started, request.1.dedupKey request.2 = held

section Steps

open DispatchNode (SameCall)

variable {dedup : DedupStore} {calls : Pool ℕ DispatchCall} {started : List (DispatchRoute × EventEnvelope)}
  {id : ℕ} {call moved : DispatchCall} {stage : Stage} {rest : List Stage} {gate : Gate} {now : ℤ}
  {cfg : NodeConfig} {node next : DispatchNode} {event : DispatchEvent}

theorem DispatchCall.OnceKinds.tail (kinds : call.OnceKinds) (stages : call.stages = stage :: rest) :
    ({ call with stages := rest } : DispatchCall).OnceKinds :=
  fun later member => kinds later (stages ▸ mem_cons_of_mem _ member)

theorem DispatchCall.OnceKinds.deliver {jobs jobs' : List (ℤ × List SessionRef)} {queue queue' : List Offer}
    (kinds : call.OnceKinds) (stages : call.stages = .deliver gate jobs queue :: rest) :
    ({ call with stages := .deliver gate jobs' queue' :: rest } : DispatchCall).OnceKinds := by
  intro stage member
  rcases mem_cons.mp member with rfl | behind
  · exact kinds (.deliver gate jobs queue) (stages ▸ mem_cons_self)
  · exact kinds stage (stages ▸ mem_cons_of_mem _ behind)

variable (recorded : Recorded node.dedup node.calls node.started)

include recorded

/-- A request that is taken for a repetition has been started before. -/
theorem Recorded.started_of_known {route : DispatchRoute} {envelope : EventEnvelope}
    (repeated : ¬ node.IsNew route envelope now) :
    ∃ request ∈ node.started, request.1.dedupKey request.2 = route.dedupKey envelope :=
  (recorded.known.of_rejected (Bool.eq_false_iff.mpr repeated)).resolve_left (DispatchRoute.not_onceKind route)

/-- A running call moves on, and the store keeps to what was started. -/
theorem Recorded.move (current : node.calls id = some call) (kinds : moved.OnceKinds) (same : SameCall call moved)
    {dedup : DedupStore} (known : dedup.Only fun held =>
      OnceKind held.routeKind ∨ ∃ request ∈ node.started, request.1.dedupKey request.2 = held) :
    Recorded dedup (node.calls.set id moved) node.started where
  kinds := recorded.kinds.set kinds
  running := by
    refine recorded.running.set ?_
    rw [same.route, same.event]
    exact recorded.running id call current
  known

theorem Recorded.request (id : ℕ) (route : DispatchRoute) (envelope : EventEnvelope) (revision : ℕ) (now : ℤ) :
    Recorded (node.request id route envelope revision now).dedup (node.request id route envelope revision now).calls
      (node.request id route envelope revision now).started := by
  by_cases new : node.IsNew route envelope now
  · rw [request_of_isNew new]
    constructor
    · exact recorded.kinds.set fun stage member => ((stages_shape ..).2 stage member).2
    · refine Pool.All.set ?_ mem_cons_self
      exact recorded.running.mono fun _ _ _ member => mem_cons_of_mem _ member
    · refine DedupStore.Only.checkAndAdd ?_ (.inr ⟨_, mem_cons_self, rfl⟩)
      exact recorded.known.mono fun held allowed => allowed.imp_right fun ⟨request, member, same⟩ =>
        ⟨request, mem_cons_of_mem _ member, same⟩
  · rw [request_of_not_isNew new]
    exact { recorded with known := recorded.known.checkAndAdd (.inr (recorded.started_of_known new)) }

theorem Recorded.runStage (current : node.calls id = some call) (stages : call.stages = stage :: rest)
    (ran : node.runStage id call rest now stage = some next) : Recorded next.dedup next.calls next.started := by
  have remaining := (recorded.kinds id call current).tail stages
  obtain ⟨_, _, _, _, _, _, _, rfl, same, later, _, dedup, _⟩ := runStage_eq_some ran
  refine recorded.move current (fun stage member => remaining stage (later member)) same ?_
  rcases dedup with rfl | rfl
  · exact recorded.known
  · exact recorded.known.remove

theorem Recorded.transition (transition : node.Transition cfg event next) :
    Recorded next.dedup next.calls next.started := by
  cases transition with
  | dispatch => exact recorded.request ..
  | @list id order call stage rest set current stages lists all =>
    have kinds := recorded.kinds id call current
    have remaining : ({ call with stages := call.expand node.reg order stage ++ rest } : DispatchCall).OnceKinds := by
      intro later member kind once
      rcases mem_append.mp member with expanded | behind
      · exact kinds stage (stages ▸ mem_cons_self) kind ((expand_stage expanded).2 _ once)
      · exact kinds.tail stages later behind kind once
    obtain ⟨_, _, moved, _⟩ := list_eq id rest order lists
    rw [moved]
    exact recorded.move current remaining ⟨rfl, rfl, rfl, rfl⟩ recorded.known
  | run current stages ran => exact recorded.runStage current stages ran
  | @check id userID visibility now call gate jobs queue rest refs _ current stages job checked =>
    have kinds := recorded.kinds id call current
    obtain ⟨users, dedup, withheld, offers, rfl, _, _, known⟩ := checkUser_eq_some checked
    refine recorded.move current (kinds.deliver stages) ⟨rfl, rfl, rfl, rfl⟩ ?_
    rcases known with rfl | ⟨kind, rfl, rfl⟩
    · exact recorded.known
    · exact recorded.known.checkAndAdd (.inl (kinds _ (stages ▸ mem_cons_self) kind rfl))
  | @offer id ref moment call gate jobs queue rest item current stages waiting addressed =>
    exact recorded.move current ((recorded.kinds id call current).deliver stages) ⟨rfl, rfl, rfl, rfl⟩ recorded.known
  | finish => exact { recorded with kinds := recorded.kinds.drop _, running := recorded.running.drop _ }
  | rotate => exact { recorded with known := recorded.known.rotateAll }
  | _ => exact recorded

end Steps

end Cordis.Session
