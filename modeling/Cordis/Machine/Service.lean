import Cordis.Machine.Pool
import Cordis.Machine.Run
import Cordis.Machine.Script

/-! # Services that run scripts on a shared store

Every request is answered by a script, in a transaction of its own. A step of the service executes the
next statement of one of the running scripts, commits a script that has returned, or rolls one back,
which may happen at any time; so a run is an interleaving of scripts at their statements. A statement
that has to wait is not enabled.

Two notions serve the properties. A service is *disciplined* when each statement is allowed by what its
transaction has seen before; it is enough to prove this of every script. Two activities are kept *apart*
when no step begins one of them, for some subject, while another transaction is in the other one for the
same subject; then they never overlap.
-/

namespace Cordis

open Pool List Option

variable {Store Request Call : Type} {Reply : Call → Type} {ε α : Type}

structure Service (Store Request : Type) (Reply : Call → Type) (ε α : Type) where
  script : Request → Script Reply ε α
  /-- Execute a statement of a transaction. -/
  exec : Store → ℕ → (statement : Call) → Option (Store × Reply statement)
  commit : Store → ℕ → Store
  rollback : Store → ℕ → Store

/-- A transaction in progress. -/
structure Task (Request : Type) (Reply : Call → Type) (ε α : Type) where
  request : Request
  log : Log Reply := []
  script : Script Reply ε α

/-- The statements a transaction has issued, newest first. -/
def Task.calls (task : Task Request Reply ε α) : List Call := issued task.log

structure ServiceState (Store Request : Type) (Reply : Call → Type) (ε α : Type) where
  store : Store
  running : Pool ℕ (Task Request Reply ε α) := Pool.empty
  /-- The transactions there have been. -/
  started : List ℕ := []

inductive ServiceEvent (Request : Type) where
  | begin (id : ℕ) (request : Request)
  | exec (id : ℕ)
  | commit (id : ℕ)
  | rollback (id : ℕ)

namespace Service

variable (service : Service Store Request Reply ε α) (state : ServiceState Store Request Reply ε α)

def stepExec (id : ℕ) (task : Task Request Reply ε α) :
    Script Reply ε α → Option (ServiceState Store Request Reply ε α)
  | .call statement next => (service.exec state.store id statement).map fun (store, reply) =>
      { state with
        store
        running := state.running.set id { task with log := ⟨statement, reply⟩ :: task.log, script := next reply } }
  | _ => none

def stepCommit (id : ℕ) : Script Reply ε α → Option (ServiceState Store Request Reply ε α)
  | .done _ => some { state with store := service.commit state.store id, running := state.running.drop id }
  | _ => none

def step : ServiceEvent Request → Option (ServiceState Store Request Reply ε α)
  | .begin id request =>
      if id ∈ state.started then none
      else some { state with
        running := state.running.set id { request, script := service.script request }, started := id :: state.started }
  | .exec id => (state.running id).bind fun task => service.stepExec state id task task.script
  | .commit id => (state.running id).bind fun task => service.stepCommit state id task.script
  | .rollback id => (state.running id).map fun _ =>
      { state with store := service.rollback state.store id, running := state.running.drop id }

def machine : Machine (ServiceState Store Request Reply ε α) (ServiceEvent Request) where
  step := service.step

variable {service state}
variable {next : ServiceState Store Request Reply ε α} {event : ServiceEvent Request}

/-- What a step can do. -/
inductive Transition (service : Service Store Request Reply ε α) (state : ServiceState Store Request Reply ε α) :
    ServiceEvent Request → ServiceState Store Request Reply ε α → Prop where
  | begin {id : ℕ} {request : Request} (fresh : id ∉ state.started) :
      Transition service state (.begin id request) { state with
        running := state.running.set id { request, script := service.script request }, started := id :: state.started }
  | exec {id : ℕ} {request : Request} {log : Log Reply} {statement : Call} {rest : Reply statement → Script Reply ε α}
      {store : Store} {reply : Reply statement}
      (current : state.running id = some ⟨request, log, .call statement rest⟩)
      (ran : service.exec state.store id statement = some (store, reply)) :
      Transition service state (.exec id)
        { state with store, running := state.running.set id ⟨request, ⟨statement, reply⟩ :: log, rest reply⟩ }
  | commit {id : ℕ} {request : Request} {log : Log Reply} {value : α}
      (current : state.running id = some ⟨request, log, .done value⟩) :
      Transition service state (.commit id)
        { state with store := service.commit state.store id, running := state.running.drop id }
  | rollback {id : ℕ} {task : Task Request Reply ε α} (current : state.running id = some task) :
      Transition service state (.rollback id)
        { state with store := service.rollback state.store id, running := state.running.drop id }

theorem transition_step (step : service.machine.step state event = some next) : Transition service state event next := by
  cases event with
  | begin id request =>
    simp only [machine, Service.step] at step
    split_ifs at step with fresh
    cases step
    exact .begin fresh
  | exec id =>
    obtain ⟨⟨request, log, script⟩, current, ran⟩ := bind_eq_some_iff.mp step
    cases script with
    | done value => cases ran
    | fail error => cases ran
    | call statement rest =>
      obtain ⟨⟨store, reply⟩, executed, rfl⟩ := map_eq_some_iff.mp ran
      exact .exec current executed
  | commit id =>
    obtain ⟨⟨request, log, script⟩, current, ran⟩ := bind_eq_some_iff.mp step
    cases script with
    | done value =>
      cases ran
      exact .commit current
    | fail error => cases ran
    | call statement rest => cases ran
  | rollback id =>
    obtain ⟨task, current, rfl⟩ := map_eq_some_iff.mp step
    exact .rollback current

section Discipline

variable {allowed : Request → Log Reply → Call → Prop} {post : Request → Log Reply → α → Prop}

/-- What is left of every running script ensures the discipline. -/
def Disciplined (allowed : Request → Log Reply → Call → Prop) (post : Request → Log Reply → α → Prop)
    (state : ServiceState Store Request Reply ε α) : Prop :=
  state.running.All fun _ task => task.script.Ensures (allowed task.request) (post task.request) task.log

theorem disciplined_step (scripts : ∀ request, (service.script request).Ensures (allowed request) (post request) [])
    (disciplined : Disciplined allowed post state) (step : service.machine.step state event = some next) :
    Disciplined allowed post next := by
  cases transition_step step with
  | begin fresh => exact disciplined.set (scripts _)
  | exec current ran =>
    have issued := disciplined _ _ current
    exact disciplined.set (issued.2 _)
  | commit current | rollback current => exact disciplined.drop _

/-- Every statement of every log was allowed by what the log had before it. -/
def Audited (allowed : Request → Log Reply → Call → Prop) (state : ServiceState Store Request Reply ε α) : Prop :=
  state.running.All fun _ task => ∀ entry earlier, (entry :: earlier) <:+ task.log → allowed task.request earlier entry.1

omit service in
theorem Audited.of_mem (audited : Audited allowed state) {id : ℕ} {task : Task Request Reply ε α}
    (running : state.running id = some task) {entry : (statement : Call) × Reply statement} (member : entry ∈ task.log) :
    ∃ earlier, (entry :: earlier) <:+ task.log ∧ allowed task.request earlier entry.1 := by
  obtain ⟨later, earlier, split⟩ := append_of_mem member
  have suffix : (entry :: earlier) <:+ task.log := ⟨later, split.symm⟩
  exact ⟨earlier, suffix, audited id task running entry earlier suffix⟩

theorem audited_step (disciplined : Disciplined allowed post state) (audited : Audited allowed state)
    (step : service.machine.step state event = some next) : Audited allowed next := by
  cases transition_step step with
  | begin fresh => exact audited.set (by simp)
  | @exec id request log statement rest store reply current ran =>
    refine audited.set fun entry earlier suffix => ?_
    rcases suffix_cons_iff.mp suffix with new | old
    · cases new
      exact (disciplined _ _ current).1
    · exact audited _ _ current entry earlier old
  | commit current | rollback current => exact audited.drop _

end Discipline

section Apart

variable {κ : Type} [DecidableEq κ]

/-- Only transactions that have started are running. -/
def Listed (state : ServiceState Store Request Reply ε α) : Prop :=
  state.running.All fun id _ => id ∈ state.started

theorem listed_step (listed : Listed state) (step : service.machine.step state event = some next) : Listed next := by
  cases transition_step step with
  | begin fresh =>
    exact .set_of mem_cons_self fun other task _ present => mem_cons_of_mem _ (listed other task present)
  | exec current ran => exact listed.set (listed _ _ current)
  | commit current | rollback current => exact listed.drop _

theorem Listed.exists_begin {id tx : ℕ} {task : Task Request Reply ε α} {known : Task Request Reply ε α → Prop}
    (listed : Listed state) (fresh : id ∉ state.started) (found : ∃ member, state.running tx = some member ∧ known member) :
    ∃ member, state.running.set id task tx = some member ∧ known member := by
  obtain ⟨member, running, satisfied⟩ := found
  have other : tx ≠ id := fun same => fresh (same ▸ listed tx member running)
  exact ⟨member, (set_of_ne _ other _).trans running, satisfied⟩

/-- The statement a script is about to issue. -/
def nextCall : Script Reply ε α → Option Call
  | .call statement _ => some statement
  | _ => none

/-- No other transaction is in the activity for the subject. -/
def Alone (activity : Request → List Call → List κ) (state : ServiceState Store Request Reply ε α) (id : ℕ)
    (subject : κ) : Prop :=
  ∀ other ∈ state.started, other ≠ id → ∀ rival ∈ state.running other, subject ∉ activity rival.request rival.calls

variable (first second : Request → List Call → List κ) (state : ServiceState Store Request Reply ε α)

instance (id : ℕ) (subject : κ) : Decidable (Alone second state id subject) := by
  unfold Alone
  infer_instance

/-- If the next statement of a transaction begins the first activity for some subject, no other
transaction is in the second one for that subject. -/
def ExecAlone (id : ℕ) : Prop :=
  ∀ task ∈ state.running id, ∀ statement ∈ nextCall task.script,
    ∀ subject ∈ first task.request (statement :: task.calls), subject ∉ first task.request task.calls →
      Alone second state id subject

instance (id : ℕ) : Decidable (ExecAlone first second state id) := by
  unfold ExecAlone
  infer_instance

/-- A step that begins the first activity, for some subject, is not taken while another transaction is in
the second one for that subject. -/
def BeginsAlone : ServiceEvent Request → Prop
  | .exec id => ExecAlone first second state id
  | .begin _ _ | .commit _ | .rollback _ => True

instance (event : ServiceEvent Request) : Decidable (BeginsAlone first second state event) := by
  cases event <;> unfold BeginsAlone <;> infer_instance

/-- Neither activity begins while another transaction is in the other one. -/
def KeptApart (event : ServiceEvent Request) : Prop :=
  BeginsAlone first second state event ∧ BeginsAlone second first state event

instance (event : ServiceEvent Request) : Decidable (KeptApart first second state event) := by
  unfold KeptApart
  infer_instance

/-- No two transactions are in the two activities for one subject. -/
def Apart : Prop :=
  ∀ id other task rival, other ≠ id → state.running id = some task → state.running other = some rival →
    ∀ subject ∈ first task.request task.calls, subject ∉ second rival.request rival.calls

variable {first second state} {store : Store}

theorem apart_exec {id : ℕ} {request : Request} {log : Log Reply} {statement : Call}
    {rest : Reply statement → Script Reply ε α} {reply : Reply statement} (listed : Listed state)
    (apart : Apart first second state) (kept : KeptApart first second state (.exec id))
    (current : state.running id = some ⟨request, log, .call statement rest⟩) :
    Apart first second
      { state with store, running := state.running.set id ⟨request, ⟨statement, reply⟩ :: log, rest reply⟩ } := by
  intro one two task rival ne present rivals subject active also
  obtain ⟨firstAlone, secondAlone⟩ := kept
  rcases of_set present with ⟨rfl, rfl⟩ | ⟨_, held⟩
  · replace rivals : state.running two = some rival := (set_of_ne _ ne _).symm.trans rivals
    by_cases before : subject ∈ first request (issued log)
    · exact apart one two _ rival ne current rivals subject before also
    · exact firstAlone _ current statement rfl subject active before two (listed _ _ rivals) ne rival rivals also
  · rcases of_set rivals with ⟨rfl, rfl⟩ | ⟨_, theirs⟩
    · by_cases before : subject ∈ second request (issued log)
      · exact apart one two task _ ne held current subject active before
      · exact secondAlone _ current statement rfl subject also before one (listed _ _ held) (Ne.symm ne) task held active
    · exact apart one two task rival ne held theirs subject active also

omit [DecidableEq κ] in
theorem apart_drop {id : ℕ} (apart : Apart first second state) :
    Apart first second { state with store, running := state.running.drop id } := by
  intro one two task rival ne present rivals
  exact apart one two task rival ne (of_drop present) (of_drop rivals)

theorem apart_step (firstNot : ∀ request, first request [] = []) (secondNot : ∀ request, second request [] = [])
    (listed : Listed state) (apart : Apart first second state) (kept : KeptApart first second state event)
    (step : service.machine.step state event = some next) : Apart first second next := by
  cases transition_step step with
  | @begin id request fresh =>
    intro one two task rival ne present rivals subject active also
    rcases of_set present with ⟨rfl, rfl⟩ | ⟨_, held⟩
    · simp only [Task.calls, issued, map_nil, firstNot, not_mem_nil] at active
    · rcases of_set rivals with ⟨rfl, rfl⟩ | ⟨_, theirs⟩
      · simp only [Task.calls, issued, map_nil, secondNot, not_mem_nil] at also
      · exact apart one two task rival ne held theirs subject active also
  | exec current ran => exact apart_exec listed apart kept current
  | commit current | rollback current => exact apart_drop apart

end Apart

end Service

end Cordis
