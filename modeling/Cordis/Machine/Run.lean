import Mathlib.Data.List.Basic

/-! # Labelled machines, schedules, and guarded runs

A machine is a partial step function. Its labels carry every choice made outside the state: which
thread moves, what a remote call returned, what the clock read. A schedule is then a list of labels
and a run is the iterated step, so "for every interleaving" is a quantifier over lists.

`Along` asks a guard of every step of a run, in the state that step is taken from. The rules below
are the only inductions over runs that the developments on top need: an invariant kept by every
step, and an invariant kept by every guarded step.
-/

namespace Cordis

open List Option

variable {State Event : Type*}

/-- A partial step function on labels; `none` means the label is not enabled. -/
structure Machine (State Event : Type*) where
  step : State → Event → Option State

namespace Machine

variable (m : Machine State Event)

/-- The iterated step. A schedule with a label that is not enabled has no run. -/
def run : State → List Event → Option State
  | s, [] => some s
  | s, e :: es => (m.step s e).bind fun next => run next es

/-- Every step of the run from `s` meets the guard in the state it is taken from. -/
def Along (guard : State → Event → Prop) : State → List Event → Prop
  | _, [] => True
  | s, e :: es => guard s e ∧
      match m.step s e with
      | some next => Along guard next es
      | none => True

instance decidableAlong (guard : State → Event → Prop) [∀ s e, Decidable (guard s e)] :
    ∀ s es, Decidable (m.Along guard s es)
  | _, [] => isTrue trivial
  | s, e :: es =>
    match h : m.step s e with
    | some next =>
      have := decidableAlong guard next es
      decidable_of_iff (guard s e ∧ m.Along guard next es) (by simp only [Along, h])
    | none => decidable_of_iff (guard s e) (by simp only [Along, h, and_true])

variable {m}

variable {s t : State} {e : Event} {es : List Event} {guard : State → Event → Prop}

theorem run_cons_eq_some :
    m.run s (e :: es) = some t ↔ ∃ next, m.step s e = some next ∧ m.run next es = some t := by
  simp only [run, bind_eq_some_iff]

theorem run_append (s : State) (first second : List Event) :
    m.run s (first ++ second) = (m.run s first).bind fun middle => m.run middle second := by
  induction first generalizing s with
  | nil => rfl
  | cons e es ih => simp only [cons_append, run, ih, bind_assoc]

variable {first second : List Event}

/-- Runs compose and split at every cut. -/
theorem run_append_eq_some :
    m.run s (first ++ second) = some t ↔
      ∃ middle, m.run s first = some middle ∧ m.run middle second = some t := by
  simp only [run_append, bind_eq_some_iff]

/-- A fixed schedule can be run: what is asked of its end is asked of the computed state. -/
theorem exists_run {holds : State → Prop} (ends : (m.run s es).isSome)
    (facts : m.run s es = some ((m.run s es).get ends) → holds ((m.run s es).get ends)) :
    ∃ t, m.run s es = some t ∧ holds t :=
  have run := (some_get ends).symm
  ⟨_, run, facts run⟩

theorem along_cons {next : State} (step : m.step s e = some next) :
    m.Along guard s (e :: es) ↔ guard s e ∧ m.Along guard next es := by
  simp only [Along, step]

theorem along_append {middle : State} (run : m.run s first = some middle) :
    m.Along guard s (first ++ second) ↔ m.Along guard s first ∧ m.Along guard middle second := by
  induction first generalizing s with
  | nil => cases run; simp [Along]
  | cons e es ih =>
    obtain ⟨next, step, rest⟩ := run_cons_eq_some.mp run
    rw [cons_append, along_cons step, along_cons step, ih rest, and_assoc]

/-- A restriction of the labels joins the guard of a run. -/
theorem Along.and_forall {allowed : Event → Prop} (along : m.Along guard s es) (all : ∀ e ∈ es, allowed e) :
    m.Along (fun s e => allowed e ∧ guard s e) s es := by
  induction es generalizing s with
  | nil => trivial
  | cons e es ih =>
    obtain ⟨here, all⟩ := forall_mem_cons.mp all
    refine ⟨⟨here, along.1⟩, ?_⟩
    have rest := along.2
    cases step : m.step s e with
    | none => trivial
    | some next =>
      simp only [step] at rest
      exact ih rest all

/-- An invariant kept by every guarded step holds at the end of every guarded run. -/
theorem invariant_along {inv : State → Prop} (kept : ∀ s e next, inv s → guard s e → m.step s e = some next → inv next)
    {s t : State} {es : List Event} (run : m.run s es = some t) (along : m.Along guard s es) (start : inv s) : inv t := by
  induction es generalizing s with
  | nil => cases run; exact start
  | cons e es ih =>
    obtain ⟨next, step, rest⟩ := run_cons_eq_some.mp run
    obtain ⟨guarded, along⟩ := (along_cons step).mp along
    exact ih rest along (kept s e next start guarded step)

/-- An invariant kept by every step holds at the end of every run. -/
theorem invariant_run {inv : State → Prop} (kept : ∀ s e next, inv s → m.step s e = some next → inv next)
    {s t : State} {es : List Event} (run : m.run s es = some t) (start : inv s) : inv t := by
  induction es generalizing s with
  | nil => cases run; exact start
  | cons e es ih =>
    obtain ⟨next, step, rest⟩ := run_cons_eq_some.mp run
    exact ih rest (kept s e next start step)

section Trace

variable {Seen : Type*}

/-- What an observer of the steps sees along a run. -/
def trace (m : Machine State Event) (observe : State → Event → Option Seen) : State → List Event → List Seen
  | _, [] => []
  | s, e :: es =>
      match m.step s e with
      | some next => (observe s e).toList ++ trace m observe next es
      | none => []

/-- An invariant of the state and of what has been seen so far holds at the end of every run. -/
theorem invariant_trace {observe : State → Event → Option Seen} {inv : State → List Seen → Prop}
    (kept : ∀ s e next past, inv s past → m.step s e = some next → inv next (past ++ (observe s e).toList))
    {s t : State} {es : List Event} (run : m.run s es = some t) {past : List Seen} (start : inv s past) :
    inv t (past ++ m.trace observe s es) := by
  induction es generalizing s past with
  | nil =>
    cases run
    rw [trace, append_nil]
    exact start
  | cons e es ih =>
    obtain ⟨next, step, rest⟩ := run_cons_eq_some.mp run
    simp only [trace, step]
    rw [← append_assoc]
    exact ih rest (kept s e next past start step)

end Trace

section Clock

variable {Time : Type*} [LE Time] [DecidableLE Time]

/-- The machine under a clock: a label that reads the time is enabled at the last time read or later. -/
def clocked (m : Machine State Event) (time : Event → Option Time) : Machine (Time × State) Event where
  step s e :=
    match time e with
    | none => (m.step s.2 e).map fun next => (s.1, next)
    | some now => if s.1 ≤ now then (m.step s.2 e).map fun next => (now, next) else none

/-- A step under the clock is a step of the machine, and the clock stands or moves on to the time read. -/
theorem clocked_step {time : Event → Option Time} {clock now : Time} {next : State}
    (step : (m.clocked time).step (clock, s) e = some (now, next)) :
    m.step s e = some next ∧ (time e = none ∧ now = clock ∨ time e = some now ∧ clock ≤ now) := by
  simp only [clocked] at step
  split at step
  · next timeless =>
    obtain ⟨_, stepped, same⟩ := map_eq_some_iff.mp step
    cases same
    exact ⟨stepped, .inl ⟨timeless, rfl⟩⟩
  · next read =>
    split_ifs at step with order
    obtain ⟨_, stepped, same⟩ := map_eq_some_iff.mp step
    cases same
    exact ⟨stepped, .inr ⟨read, order⟩⟩

end Clock

section Many

variable {Index : Type*} [DecidableEq Index] {machines : Index → Machine State Event}

/-- Many machines side by side; a step is a step of one of them. -/
def many (machines : Index → Machine State Event) : Machine (Index → State) (Index × Event) where
  step states event := ((machines event.1).step (states event.1) event.2).map (Function.update states event.1)

/-- An invariant kept by every step of each machine holds for each at the end of every run of all. -/
theorem invariant_many {inv : Index → State → Prop}
    (kept : ∀ index s e next, inv index s → (machines index).step s e = some next → inv index next)
    {s t : Index → State} {es : List (Index × Event)} (run : (many machines).run s es = some t)
    (start : ∀ index, inv index (s index)) : ∀ index, inv index (t index) := by
  refine @invariant_run _ _ _ (fun states => ∀ index, inv index (states index)) (fun _ event _ all step index => ?_)
    _ _ _ run start
  obtain ⟨next, stepped, rfl⟩ := map_eq_some_iff.mp step
  by_cases same : index = event.1
  · subst same
    rw [Function.update_self]
    exact kept _ _ _ next (all _) stepped
  · rw [Function.update_of_ne same]
    exact all index

end Many

/-- A machine whose every label is enabled. -/
def total (f : State → Event → State) : Machine State Event where
  step s e := some (f s e)

theorem run_total (f : State → Event → State) (s : State) (es : List Event) :
    (total f).run s es = some (es.foldl f s) := by
  induction es generalizing s with
  | nil => rfl
  | cons e es ih => exact ih (f s e)

end Machine

end Cordis
