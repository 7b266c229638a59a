import Cordis.Machine.Pool
import Cordis.Machine.Run

/-! # Probing an unavailable primary backend

Calls of the limiter try the primary backend until one fails. The failure marks the backend
unavailable for the retry interval, and after that one call at a time probes it. One flag stands for
the probe, and every attempt clears the flag when it ends, also one that began before the failure.
-/

namespace Cordis.RateLimit

open Option

/-- The manager's fields about its primary backend; the zero time is `none`. -/
structure Primary where
  unavailableTo : Option ℕ := none
  probing : Bool := false

structure Options where
  hasPrimary : Bool
  retryInterval : ℕ

/-- The fields after an attempt was allowed; a refused one changes nothing. -/
def Primary.beginPrimaryAttempt (opts : Options) (primary : Primary) (now : ℕ) : Option Primary :=
  if opts.hasPrimary then
    match primary.unavailableTo with
    | none => some primary
    | some unavailableTo =>
      if now < unavailableTo ∨ primary.probing then none else some { primary with probing := true }
  else none

def Primary.finishPrimaryAttempt (opts : Options) (primary : Primary) (success : Bool) (now : ℕ) : Primary :=
  let primary := { primary with probing := false }
  if success then { primary with unavailableTo := none }
  else { primary with unavailableTo := some (now + opts.retryInterval) }

def Primary.cancelPrimaryAttempt (primary : Primary) : Primary :=
  { primary with probing := false }

/-- An attempt begins at once on a healthy primary, and as the only probe after the mark has run out. -/
theorem Primary.began_cases {opts : Options} {primary after : Primary} {now : ℕ}
    (began : primary.beginPrimaryAttempt opts now = some after) :
    primary.unavailableTo = none ∧ after = primary ∨
      ∃ unavailableTo ≤ now, primary.unavailableTo = some unavailableTo ∧ primary.probing = false ∧
        after = { primary with probing := true } := by
  unfold beginPrimaryAttempt at began
  split_ifs at began
  split at began
  · next healthy => exact .inl ⟨healthy, (some.inj began).symm⟩
  · next unavailableTo marked =>
    split_ifs at began with waits
    simp only [not_or, Nat.not_lt, Bool.not_eq_true] at waits
    exact .inr ⟨unavailableTo, waits.1, marked, waits.2, (some.inj began).symm⟩

/-- How the primary's `Take` returns: with a decision, with the error of the request's context, or
with any other error. -/
inductive Outcome where
  | decided
  | canceled
  | failed
  deriving DecidableEq

/-- What `Manager.Take` does with the outcome. -/
def Primary.settle (opts : Options) (primary : Primary) (now : ℕ) : Outcome → Primary
  | .decided => primary.finishPrimaryAttempt opts true now
  | .canceled => primary.cancelPrimaryAttempt
  | .failed => primary.finishPrimaryAttempt opts false now

/-- The manager with the calls that wait for its primary backend. -/
structure Manager where
  primary : Primary := {}
  /-- The attempts in flight, each with whether it began since the primary was marked unavailable. -/
  attempts : Pool ℕ Bool := .empty
  /-- The attempt that set the flag last. -/
  prober : Option ℕ := none
  /-- The latest time read for a failure. -/
  latestFailure : ℕ := 0

/-- A call asks for an attempt, or its attempt returns; it has read the clock before either. -/
inductive TakeEvent where
  | attempt (id now : ℕ)
  | settle (id : ℕ) (outcome : Outcome) (now : ℕ)

namespace Manager

def step (opts : Options) (manager : Manager) : TakeEvent → Option Manager
  | .attempt id now =>
    if manager.attempts id ≠ none then none
    else match manager.primary.beginPrimaryAttempt opts now with
      | none => some manager
      | some primary =>
        let marked := manager.primary.unavailableTo.isSome
        some { manager with
          primary
          attempts := manager.attempts.set id marked
          prober := if marked then some id else manager.prober }
  | .settle id outcome now =>
    if manager.attempts id = none then none
    else
      let failed := outcome = .failed
      let left := manager.attempts.drop id
      some { manager with
        primary := manager.primary.settle opts now outcome
        attempts := if failed ∧ manager.primary.unavailableTo = none then left.map fun _ => false else left
        latestFailure := if failed then max manager.latestFailure now else manager.latestFailure }

/-- While the primary is marked unavailable, at most one attempt in flight began since it was marked,
and none can begin within the retry interval of the latest failure. -/
def SingleProbe (opts : Options) (manager : Manager) : Prop :=
  manager.primary.unavailableTo ≠ none →
    (∀ first second, manager.attempts first = some true → manager.attempts second = some true → first = second) ∧
    ∀ now, (manager.primary.beginPrimaryAttempt opts now).isSome → manager.latestFailure + opts.retryInterval ≤ now

/-- While the flag is set only the attempt that set it returns, and failures are recorded in the order
in which the clock was read for them. -/
def OwnProbe (manager : Manager) : TakeEvent → Prop
  | .attempt _ _ => True
  | .settle id outcome now =>
    (manager.primary.probing = true → manager.prober = some id) ∧
      (outcome = .failed → manager.latestFailure ≤ now)

instance (manager : Manager) (event : TakeEvent) : Decidable (manager.OwnProbe event) :=
  match event with
  | .attempt _ _ => inferInstanceAs (Decidable True)
  | .settle _ _ _ => inferInstanceAs (Decidable (_ ∧ _))

/-- Attempts that began since the mark hold the flag, and the mark lasts for the interval. -/
structure Probing (opts : Options) (manager : Manager) : Prop where
  holds : manager.attempts.All fun id marked => marked → manager.primary.probing ∧ manager.prober = some id
  lasts : ∀ unavailableTo ∈ manager.primary.unavailableTo, manager.latestFailure + opts.retryInterval ≤ unavailableTo

variable {opts : Options} {manager next : Manager} {event : TakeEvent}

theorem Probing.step (probing : Probing opts manager) (own : manager.OwnProbe event)
    (stepped : manager.step opts event = some next) : Probing opts next := by
  cases event with
  | attempt id now =>
    simp only [Manager.step, ite_none_left_eq_some] at stepped
    obtain ⟨_, stepped⟩ := stepped
    split at stepped <;> cases stepped
    · exact probing
    · next began =>
      rcases Primary.began_cases began with ⟨healthy, rfl⟩ | ⟨_, _, marked, free, rfl⟩
      · rw [healthy]
        exact ⟨probing.holds.set (by simp), healthy ▸ probing.lasts⟩
      · rw [marked]
        refine ⟨Pool.All.set_of (fun _ => ⟨rfl, rfl⟩) fun other task _ present began => ?_, marked ▸ probing.lasts⟩
        -- the flag was clear, so no attempt since the mark is in flight
        cases free.symm.trans (probing.holds other task present began).1
  | settle id outcome now =>
    obtain ⟨_, stepped⟩ := ite_none_left_eq_some.mp stepped
    cases stepped
    -- an attempt since the mark holds the flag, so it is the one that returns
    have left : (manager.attempts.drop id).All fun _ marked => marked = false := by
      refine Pool.All.drop_of fun other task different present => Bool.eq_false_iff.mpr fun marked => different ?_
      obtain ⟨flag, prober⟩ := probing.holds other task present marked
      exact some.inj (prober.symm.trans (own.1 flag))
    refine ⟨?_, fun unavailableTo mark => ?_⟩
    · intro other marked present began
      have clear : marked = false := by
        split at present
        · obtain ⟨_, _, same⟩ := map_eq_some_iff.mp present
          exact same.symm
        · exact left other marked present
      simp [clear] at began
    · cases outcome with
      | decided => cases mark
      | canceled => exact probing.lasts unavailableTo mark
      | failed =>
        cases mark
        simp [own.2 rfl]

/-- In every run whose attempts return while the flag is theirs or clear, and whose failures are
recorded in the order of the clock, the primary is probed by one attempt at a time and not before the
retry interval has passed. -/
theorem single_probe {events : List TakeEvent} (run : (Machine.mk (step opts)).run {} events = some manager)
    (own : (Machine.mk (step opts)).Along OwnProbe {} events) : SingleProbe opts manager := by
  have probing : Probing opts manager :=
    Machine.invariant_along (fun _ _ _ inv guard stepped => inv.step guard stepped) run own
      ⟨Pool.all_empty _, by simp⟩
  refine fun marked => ⟨fun first second began other => ?_, fun now began => ?_⟩
  · have prober := (probing.holds first true began rfl).2
    exact Option.some.inj (prober.symm.trans (probing.holds second true other rfl).2)
  · obtain ⟨after, began⟩ := Option.isSome_iff_exists.mp began
    rcases Primary.began_cases began with ⟨healthy, _⟩ | ⟨unavailableTo, passed, mark, _⟩
    · exact absurd healthy marked
    · exact Nat.le_trans (probing.lasts unavailableTo mark) passed

/-- The first call of two fails and a third probes when the interval is over. The second, which began
before the failure, is cancelled and clears the flag, so a fourth call probes as well. -/
theorem late_cancel_admits_second_probe :
    ∃ manager, (Machine.mk (step ⟨true, 1000⟩)).run {}
        [.attempt 1 0, .attempt 2 0, .settle 1 .failed 0, .attempt 3 1000, .settle 2 .canceled 1000,
          .attempt 4 1001] = some manager ∧
      ¬ SingleProbe ⟨true, 1000⟩ manager := by
  refine Machine.exists_run rfl fun _ single => ?_
  have same := (single (by decide)).1 3 4 (by decide) (by decide)
  cases same

/-- A call that began before the failure returns before the probe, and the probe fails in its turn. -/
theorem probe_after_late_return :
    ∃ manager, (Machine.mk (step ⟨true, 1000⟩)).run {}
        [.attempt 1 0, .attempt 2 0, .settle 1 .failed 0, .settle 2 .failed 5, .attempt 3 1005,
          .settle 3 .failed 1010, .attempt 4 2010] = some manager ∧
      SingleProbe ⟨true, 1000⟩ manager :=
  Machine.exists_run rfl fun run => single_probe run (by decide)

end Manager

end Cordis.RateLimit
