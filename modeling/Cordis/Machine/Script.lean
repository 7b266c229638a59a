import Mathlib.Data.List.Infix

/-! # Programs that issue statements

A script is a program seen from a store that it can only reach through statements: it has returned, it
has failed, or it waits for the reply to its next statement. Between two statements anything may happen
to the store, so a script says nothing about states; its behaviour is the tree of statements and
replies.

`Ensures` is a weakest precondition over that tree. The log has the statements issued so far with their
replies, newest first. It asks that every statement the script can issue is allowed by what is in the
log when it is issued, and a postcondition of what it returns; a failure needs nothing. The rules below
follow the constructs a script is written with.
-/

namespace Cordis

variable {Call : Type} {Reply : Call → Type} {ε α β : Type}

inductive Script (Reply : Call → Type) (ε α : Type) where
  | done (value : α)
  | fail (error : ε)
  | call (statement : Call) (next : Reply statement → Script Reply ε α)

/-- The statements issued, with their replies, newest first. -/
abbrev Log (Reply : Call → Type) := List ((statement : Call) × Reply statement)

/-- The statements of a log. -/
def issued (log : Log Reply) : List Call := log.map Sigma.fst

namespace Script

def bind : Script Reply ε α → (α → Script Reply ε β) → Script Reply ε β
  | done value, next => next value
  | fail error, _ => fail error
  | call statement continue_, next => call statement fun reply => (continue_ reply).bind next

instance : Monad (Script Reply ε) where
  pure := done
  bind := bind

/-- Issue one statement. -/
def perform (statement : Call) : Script Reply ε (Reply statement) := call statement done

/-- A computation without statements. -/
def lift : Except ε α → Script Reply ε α
  | .ok value => done value
  | .error error => fail error

/-- A step for each element of a list, one after the other. -/
def each (step : α → Script Reply ε Unit) : List α → Script Reply ε Unit
  | [] => done ()
  | value :: values => (step value).bind fun _ => each step values

/-- Every statement of the script is allowed when it is issued, and what it returns meets the
postcondition. -/
def Ensures (allowed : Log Reply → Call → Prop) (post : Log Reply → α → Prop) : Log Reply → Script Reply ε α → Prop
  | log, done value => post log value
  | _, fail _ => True
  | log, call statement next => allowed log statement ∧ ∀ reply, Ensures allowed post (⟨statement, reply⟩ :: log) (next reply)

variable {allowed : Log Reply → Call → Prop} {post : Log Reply → α → Prop} {log : Log Reply} {value : α}

@[simp] theorem ensures_pure : Ensures allowed post log (pure value : Script Reply ε α) ↔ post log value :=
  Iff.rfl

@[simp] theorem ensures_lift {step : Except ε α} :
    Ensures allowed post log (lift step : Script Reply ε α) ↔ ∀ value, step = .ok value → post log value := by
  cases step with
  | ok value | error error => simp [lift, Ensures]

variable {next : α → Script Reply ε β} {first : Script Reply ε α}

/-- A composed script ensures what its first part ensures the second part needs. -/
@[simp] theorem ensures_bind {post : Log Reply → β → Prop} :
    Ensures allowed post log (first >>= next) ↔
      Ensures allowed (fun log value => Ensures allowed post log (next value)) log first := by
  change Ensures allowed post log (first.bind next) ↔ _
  induction first generalizing log with
  | done value => rfl
  | fail error => rfl
  | call statement continue_ ih => simp only [bind, Ensures, ih]

variable {script : Script Reply ε α}

theorem Ensures.mono {weaker : Log Reply → α → Prop} (ensures : Ensures allowed post log script)
    (imp : ∀ later value, log <:+ later → post later value → weaker later value) : Ensures allowed weaker log script := by
  induction script generalizing log with
  | done value => exact imp log value List.suffix_rfl ensures
  | fail error => trivial
  | call statement next ih =>
    refine ⟨ensures.1, fun reply => ih reply (ensures.2 reply) fun later value suffix => ?_⟩
    exact imp later value ((List.suffix_cons _ _).trans suffix)

variable {step : α → Script Reply ε Unit}

/-- A loop keeps an invariant of the log that each of its rounds keeps. -/
theorem ensures_each {inv : Log Reply → Prop} {values : List α} (start : inv log)
    (round : ∀ log, inv log → ∀ value ∈ values, Ensures allowed (fun log _ => inv log) log (step value)) :
    Ensures allowed (fun log _ => inv log) log (each step values) := by
  induction values generalizing log with
  | nil => exact start
  | cons value values ih =>
    change Ensures allowed _ log (step value >>= fun _ => each step values)
    rw [ensures_bind]
    refine (round log start value List.mem_cons_self).mono fun later _ _ kept => ?_
    exact ih kept fun log kept other member => round log kept other (List.mem_cons_of_mem _ member)

/-- Every statement of the script is of a kind, whatever the replies are. -/
def Issues (kind : Call → Prop) : Script Reply ε α → Prop
  | done _ | fail _ => True
  | call statement next => kind statement ∧ ∀ reply, Issues kind (next reply)

section Issues

variable {kind : Call → Prop}

theorem Issues.pure : Issues kind (Pure.pure value : Script Reply ε α) := trivial

theorem Issues.lift {step : Except ε α} : Issues kind (lift step : Script Reply ε α) := by
  cases step <;> trivial

theorem Issues.perform {statement : Call} (fits : kind statement) :
    Issues kind (perform statement : Script Reply ε (Reply statement)) :=
  ⟨fits, fun _ => trivial⟩

theorem Issues.bind (starts : Issues kind first)
    (goesOn : ∀ value, Issues kind (next value)) : Issues kind (first >>= next) := by
  change Issues kind (first.bind next)
  induction first with
  | done value => exact goesOn value
  | fail error => trivial
  | call statement continue_ ih => exact ⟨starts.1, fun reply => ih reply (starts.2 reply)⟩

theorem Issues.each (round : ∀ value, Issues kind (step value)) (values : List α) :
    Issues kind (each step values) := by
  induction values with
  | nil => trivial
  | cons value values ih => exact (round value).bind fun _ => ih

theorem Issues.ensures (issues : Issues kind script)
    (imp : ∀ log statement, kind statement → allowed log statement) : Ensures allowed (fun _ _ => True) log script := by
  induction script generalizing log with
  | done value => trivial
  | fail error => trivial
  | call statement next ih => exact ⟨imp log statement issues.1, fun reply => ih reply (issues.2 reply)⟩

end Issues

end Script

end Cordis
