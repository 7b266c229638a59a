import Cordis.Session.DispatchSteps

/-! # The stages a call can have

A call checks a watermark only as its first stage, and serves users once only for the two kinds of
events that overlap on several routes. Listing stages make neither.
-/

namespace Cordis.Session

open Stage DispatchCall List

/-- The watermark check that the stage makes. -/
def Stage.mark : Stage → Option (WatermarkKey × ℤ)
  | .accept key sequence => some (key, sequence)
  | _ => none

/-- The gate that the sessions of the stage pass. -/
def Stage.gate : Stage → Option Gate
  | .sessions gate | .deliver gate _ _ => some gate
  | _ => none

/-- The watermark check that a call of the event makes. -/
def DispatchRoute.mark (route : DispatchRoute) (event : EventEnvelope) : Option (WatermarkKey × ℤ) :=
  (route.stages event).head?.bind Stage.mark

/-- The kinds of the deduplication keys that stand for users. -/
def OnceKind (kind : UInt8) : Prop := kind = routeKindProfile ∨ kind = routeKindPresence

theorem DispatchRoute.not_onceKind (route : DispatchRoute) : ¬ OnceKind route.kind := by
  cases route <;> simp [OnceKind, kind, routeKindGuild, routeKindGuildMsg, routeKindUser, routeKindProfile,
    routeKindPresence]

/-- A call checks a watermark first of all and then lists its sessions, or checks none. It starts with no
stage that takes sessions out of the guild index, and serves once only what overlaps. -/
theorem stages_shape (route : DispatchRoute) (event : EventEnvelope) :
    ((∃ key sequence gate, route.stages event = [.accept key sequence, .sessions gate]) ∨
      ∀ stage ∈ route.stages event, stage.mark = none) ∧
    ∀ stage ∈ route.stages event, stage.isRemoval = false ∧
      ∀ kind, stage.gate = some (.once kind) → OnceKind kind := by
  cases route with
  | guild guildID =>
    simp only [DispatchRoute.stages]
    cases event.routing with
    | none => simp [mark, isRemoval, gate]
    | some routing =>
      simp only [guildStages, attachStages]
      cases EventType.ofName event.type <;> dsimp only <;> (try split_ifs) <;>
        simp [mark, isRemoval, gate, OnceKind]
  | guildMessage guildID channelID => simp [DispatchRoute.stages, isRemoval, gate]
  | user userID =>
    simp only [DispatchRoute.stages, userStages]
    split_ifs
    · cases event.routing with
      | none => simp
      | some routing => dsimp only; split_ifs <;> simp [isRemoval, gate]
    all_goals simp [mark, isRemoval, gate, OnceKind]

variable {route : DispatchRoute} {event : EventEnvelope} {key : WatermarkKey} {sequence : ℤ}

theorem stages_of_mark (marked : route.mark event = some (key, sequence)) :
    ∃ gate, route.stages event = [.accept key sequence, .sessions gate] := by
  rcases (stages_shape route event).1 with ⟨key, sequence, gate, stages⟩ | unmarked
  · rw [DispatchRoute.mark, stages] at marked
    cases marked
    exact ⟨gate, stages⟩
  · obtain ⟨stage, first, marked⟩ := Option.bind_eq_some_iff.mp marked
    cases (unmarked stage (mem_of_head? first)).symm.trans marked

theorem mark_of_stages {rest : List Stage} (stages : route.stages event = .accept key sequence :: rest) :
    route.mark event = some (key, sequence) := by
  rw [DispatchRoute.mark, stages]
  rfl

/-- A listing stage makes no watermark check, and no gate that it did not have. -/
theorem expand_stage {call : DispatchCall} {reg : Registry} {order : List SessionRef} {stage made : Stage}
    (member : made ∈ call.expand reg order stage) :
    made.mark = none ∧ ∀ gate, made.gate = some gate → stage.gate = some gate := by
  cases stage with
  | sessions gate => cases gate <;> cases mem_singleton.mp member <;> exact ⟨rfl, fun _ => id⟩
  | attachGuildUser userID =>
    simp only [expand, mem_append, mem_flatMap, mem_cons, not_mem_nil,
      or_false] at member
    rcases member with ⟨_, _, rfl | rfl⟩ | last
    · exact ⟨rfl, fun _ gated => by cases gated⟩
    · exact ⟨rfl, fun _ gated => by cases gated⟩
    · split_ifs at last
      · cases last
      · cases mem_singleton.mp last
        exact ⟨rfl, fun _ gated => by cases gated⟩
  | invalidateGuild userID =>
    obtain ⟨_, _, rfl⟩ := mem_map.mp member
    exact ⟨rfl, fun _ gated => by cases gated⟩
  | viewers channelID =>
    simp only [expand] at member
    split_ifs at member
    · cases member
    · obtain ⟨_, _, rfl⟩ := mem_map.mp member
      exact ⟨rfl, fun _ gated => by cases gated⟩
  | detachGuildUser userID =>
    simp only [expand, mem_append, mem_flatMap, mem_cons, not_mem_nil,
      or_false] at member
    rcases member with ⟨_, _, rfl | rfl⟩ | rfl <;> exact ⟨rfl, fun _ gated => by cases gated⟩
  | detachGuild =>
    simp only [expand, mem_append, mem_map, mem_cons] at member
    rcases member with ⟨_, _, rfl⟩ | rfl | ⟨_, _, rfl⟩ <;> exact ⟨rfl, fun _ gated => by cases gated⟩
  | _ => cases member

end Cordis.Session
