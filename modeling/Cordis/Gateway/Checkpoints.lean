import Cordis.Machine.Run
import Mathlib.Algebra.Order.Ring.Int
import Mathlib.Data.List.Dedup
import Mathlib.Data.List.Perm.Basic

/-! # The checkpoints of a gateway

Heartbeats of the connections of a gateway record what the clients have acknowledged, in one slot for each
session. A background task copies the slots and sends them to the session nodes in batches. A slot is emptied
when exactly its checkpoint has been sent, or when its connection closes.

A slot is overwritten by whatever another connection or another epoch records. A late heartbeat of a replaced
connection so displaces the checkpoint of the new one, which may never be sent. If connections record only
while no newer binding has a checkpoint in the slot, what the newest binding has acknowledged is not lost.

Addresses and session ids have no NUL, so the text of a key stands for the pair.
-/

namespace Cordis.Gateway

open List Option

section Manager

structure Checkpoint where
  address : String
  sessionID : String
  connectionID : String
  bindingEpoch : ℕ
  sequence : ℕ
deriving DecidableEq, Repr

namespace Checkpoint

def key (checkpoint : Checkpoint) : String × String := (checkpoint.address, checkpoint.sessionID)

/-- The checkpoints are of one connection and epoch. -/
def SameBinding (one other : Checkpoint) : Prop :=
  one.connectionID = other.connectionID ∧ one.bindingEpoch = other.bindingEpoch
deriving Decidable

/-- The later checkpoint is of a newer epoch, or of the same binding with a larger sequence. -/
def Newer (old new : Checkpoint) : Prop :=
  old.bindingEpoch < new.bindingEpoch ∨ SameBinding old new ∧ old.sequence < new.sequence

end Checkpoint

/-- The map of the slots, as the list of its values. -/
abbrev Slots := List Checkpoint

namespace Slots

variable (slots : Slots)

def get (key : String × String) : Option Checkpoint := slots.find? fun checkpoint => checkpoint.key = key

def delete (key : String × String) : Slots := slots.filter fun checkpoint => checkpoint.key ≠ key

def put (checkpoint : Checkpoint) : Slots := checkpoint :: delete slots checkpoint.key

def record (checkpoint : Checkpoint) : Slots :=
  match slots.get checkpoint.key with
  | none => slots.put checkpoint
  | some current =>
    if current.SameBinding checkpoint ∧ checkpoint.sequence ≤ current.sequence then slots else slots.put checkpoint

def remove (key : String × String) (connectionID : String) (bindingEpoch : ℕ) : Slots :=
  if (slots.get key).any fun current => current.connectionID = connectionID ∧ current.bindingEpoch = bindingEpoch then
    slots.delete key
  else slots

/-- One checkpoint of a batch that has been sent. -/
def deleteOne (checkpoint : Checkpoint) : Slots :=
  if (slots.get checkpoint.key).any fun current => current.SameBinding checkpoint ∧ current.sequence = checkpoint.sequence then
    slots.delete checkpoint.key
  else slots

def deleteSynced (batch : List Checkpoint) : Slots := batch.foldl deleteOne slots

end Slots

/-- A nonpositive size of the batches is replaced by the default. -/
def checkpointLimit (configured : ℤ) : ℕ := if configured ≤ 0 then 500 else configured.toNat

/-- The loop that cuts the checkpoints of one address, `rounds` times at most. -/
def batchesFrom (batchSize : ℕ) : ℕ → List Checkpoint → List (List Checkpoint)
  | 0, _ => []
  | _, [] => []
  | rounds + 1, checkpoints =>
    checkpoints.take batchSize :: batchesFrom batchSize rounds (checkpoints.drop batchSize)

/-- The batches of a flush that has met the slots in this order. -/
def batchesOf (batchSize : ℕ) (order : List Checkpoint) : List (List Checkpoint) :=
  (order.map Checkpoint.address).dedup.flatMap fun address =>
    let checkpoints := order.filter fun checkpoint => checkpoint.address = address
    batchesFrom batchSize checkpoints.length checkpoints

structure Manager where
  pending : Slots := []
  /-- The batches that the flush in progress has still to send. -/
  batches : List (List Checkpoint) := []
  /-- A batch that has been sent and not yet deleted. -/
  sent : Option (List Checkpoint) := none
  /-- For the statements only: the checkpoints recorded, those that successful calls carried, and those whose
  own connection has removed them. -/
  recorded : List Checkpoint := []
  synced : List Checkpoint := []
  removed : List Checkpoint := []

inductive ManagerEvent where
  | record (checkpoint : Checkpoint)
  | remove (key : String × String) (connectionID : String) (bindingEpoch : ℕ)
  /-- A flush copies the slots, in any order. -/
  | flush (order : List Checkpoint)
  /-- The call for the next batch returns. -/
  | sync (success : Bool)
  | deleteSynced
deriving DecidableEq

def Manager.step (configured : ℤ) (manager : Manager) : ManagerEvent → Option Manager
  | .record checkpoint =>
    some { manager with pending := manager.pending.record checkpoint, recorded := checkpoint :: manager.recorded }
  | .remove key connectionID bindingEpoch =>
    some { manager with
      pending := manager.pending.remove key connectionID bindingEpoch
      removed := (manager.pending.get key).toList.filter (fun current =>
        current.connectionID = connectionID ∧ current.bindingEpoch = bindingEpoch) ++ manager.removed }
  | .flush order =>
    if manager.batches = [] ∧ manager.sent = none ∧ order.Perm manager.pending then
      some { manager with batches := batchesOf (checkpointLimit configured) order }
    else none
  | .sync success =>
    match manager.batches, manager.sent with
    | batch :: batches, none =>
      if success then some { manager with batches, sent := some batch, synced := batch ++ manager.synced }
      else some { manager with batches }
    | _, _ => none
  | .deleteSynced => manager.sent.map fun batch =>
    { manager with pending := manager.pending.deleteSynced batch, sent := none }

def checkpointMachine (configured : ℤ) : Machine Manager ManagerEvent where
  step := Manager.step configured

end Manager

section Slots

variable {slots : Slots} {key : String × String} {checkpoint old new : Checkpoint}

namespace Slots

theorem get_delete (slots : Slots) (key other : String × String) :
    (slots.delete key).get other = if other = key then none else slots.get other := by
  unfold get delete
  rw [find?_filter]
  split_ifs with same
  · subst same
    simp
  · congr 1
    funext checkpoint
    by_cases here : checkpoint.key = other
    · simp [here, same]
    · simp [here]

theorem get_put (slots : Slots) (checkpoint : Checkpoint) (other : String × String) :
    (slots.put checkpoint).get other = if other = checkpoint.key then some checkpoint else slots.get other := by
  have rest := get_delete slots checkpoint.key other
  unfold put
  simp only [get, find?_cons] at rest ⊢
  by_cases same : other = checkpoint.key
  · simp [same]
  · simp [same, Ne.symm same, rest]

theorem key_of_get (found : slots.get key = some checkpoint) : checkpoint.key = key := by
  simpa using find?_some found

theorem mem_of_get (found : slots.get key = some checkpoint) : checkpoint ∈ slots := mem_of_find?_eq_some found

/-- What recording leaves in a slot: a slot of another key as it was, and in its own the checkpoint, unless
the slot has one of the same binding that is as far. -/
theorem get_record (slots : Slots) (checkpoint : Checkpoint) (key : String × String) :
    (slots.record checkpoint).get key = slots.get key ∧ (key = checkpoint.key →
        ∃ current, slots.get key = some current ∧ current.SameBinding checkpoint ∧ checkpoint.sequence ≤ current.sequence) ∨
      key = checkpoint.key ∧ (slots.record checkpoint).get key = some checkpoint ∧
        ∀ current ∈ slots.get key, ¬ (current.SameBinding checkpoint ∧ checkpoint.sequence ≤ current.sequence) := by
  unfold record
  by_cases same : key = checkpoint.key
  · subst same
    cases found : slots.get checkpoint.key with
    | none => simp [get_put]
    | some current =>
      by_cases covered : current.SameBinding checkpoint ∧ checkpoint.sequence ≤ current.sequence
      · simp [covered, found]
      · refine .inr ⟨rfl, by simp [covered, get_put], fun other isCurrent => ?_⟩
        cases isCurrent
        exact covered
  · refine .inl ⟨?_, fun isKey => (same isKey).elim⟩
    split
    · simp [get_put, same]
    · split_ifs <;> simp [get_put, same]

/-- A slot is emptied only if its checkpoint is picked. -/
theorem get_deleteIf (slots : Slots) (own key : String × String) (picks : Checkpoint → Bool) :
    (if (slots.get own).any picks then slots.delete own else slots).get key = slots.get key ∨
      (if (slots.get own).any picks then slots.delete own else slots).get key = none ∧ key = own ∧
        ∀ current ∈ slots.get key, picks current = true := by
  split_ifs with picked
  · rw [get_delete]
    split_ifs with same
    · subst same
      refine .inr ⟨rfl, rfl, fun current found => ?_⟩
      rwa [mem_def.mp found] at picked
    · exact .inl rfl
  · exact .inl rfl

theorem get_deleteOne (slots : Slots) (sent : Checkpoint) (key : String × String) :
    (slots.deleteOne sent).get key = slots.get key ∨
      (slots.deleteOne sent).get key = none ∧ ∀ current ∈ slots.get key, current = sent := by
  refine (get_deleteIf slots sent.key key _).imp_right fun ⟨gone, same, exactly⟩ => ⟨gone, fun current found => ?_⟩
  have sameKey := (key_of_get (mem_def.mp found)).trans same
  obtain ⟨⟨sameConnection, sameEpoch⟩, sameSequence⟩ := of_decide_eq_true (exactly current found)
  obtain ⟨sameAddress, sameSession⟩ := Prod.mk.inj sameKey
  cases current
  cases sent
  simp_all

/-- A slot is emptied only if its checkpoint is in the batch. -/
theorem get_deleteSynced (slots : Slots) (batch : List Checkpoint) (key : String × String) :
    (slots.deleteSynced batch).get key = slots.get key ∨
      (slots.deleteSynced batch).get key = none ∧ ∀ current ∈ slots.get key, current ∈ batch := by
  induction batch generalizing slots with
  | nil => exact .inl rfl
  | cons sent batch ih =>
    change ((slots.deleteOne sent).deleteSynced batch).get key = _ ∨ ((slots.deleteOne sent).deleteSynced batch).get key = _ ∧ _
    rcases get_deleteOne slots sent key with same | ⟨gone, exactly⟩
    · rw [← same]
      refine (ih _).imp_right fun ⟨gone, carried⟩ => ⟨gone, fun current found => ?_⟩
      exact mem_cons_of_mem _ (carried current found)
    · refine .inr ⟨?_, fun current found => exactly current found ▸ mem_cons_self⟩
      rcases ih (slots.deleteOne sent) with same | ⟨stillGone, _⟩
      · rw [same, gone]
      · exact stillGone

end Slots

end Slots

section Runs

variable {configured : ℤ} {manager next : Manager} {event : ManagerEvent} {checkpoint old : Checkpoint}

theorem flush_step {order : List Checkpoint}
    (step : (checkpointMachine configured).step manager (.flush order) = some next) :
    manager.batches = [] ∧ order.Perm manager.pending ∧
      next = { manager with batches := batchesOf (checkpointLimit configured) order } := by
  simp only [checkpointMachine, Manager.step, ite_none_right_eq_some, some.injEq] at step
  obtain ⟨⟨idle, _, perm⟩, rfl⟩ := step
  exact ⟨idle, perm, rfl⟩

theorem sync_step {success : Bool} (step : (checkpointMachine configured).step manager (.sync success) = some next) :
    ∃ batch batches, manager.batches = batch :: batches ∧
      next = if success then { manager with batches, sent := some batch, synced := batch ++ manager.synced }
        else { manager with batches } := by
  simp only [checkpointMachine, Manager.step] at step
  split at step
  · next batch batches first _ =>
    refine ⟨batch, batches, first, ?_⟩
    cases success <;> exact (some.inj step).symm
  · cases step

theorem deleteSynced_step (step : (checkpointMachine configured).step manager .deleteSynced = some next) :
    ∃ batch ∈ manager.sent, next = { manager with pending := manager.pending.deleteSynced batch, sent := none } := by
  simp only [checkpointMachine, Manager.step, map_eq_some_iff] at step
  obtain ⟨batch, sent, rfl⟩ := step
  exact ⟨batch, sent, rfl⟩

/-- What is recorded is of the binding whose checkpoint the slot has, or of a newer one. -/
def InOrder (manager : Manager) : ManagerEvent → Prop
  | .record checkpoint => ∀ current ∈ manager.pending.get checkpoint.key,
      current.SameBinding checkpoint ∨ current.bindingEpoch < checkpoint.bindingEpoch
  | _ => True

instance (manager : Manager) : DecidablePred (InOrder manager)
  | .record checkpoint => inferInstanceAs (Decidable (∀ current ∈ manager.pending.get checkpoint.key, _))
  | .remove _ _ _ | .flush _ | .sync _ | .deleteSynced => isTrue trivial

/-- What a step may make of a slot with a checkpoint. -/
inductive SlotStep (manager : Manager) (event : ManagerEvent) (next : Manager) (old : Checkpoint) : Prop
  | kept (same : next.pending.get old.key = some old)
  | replaced (new : Checkpoint) (recorded : event = .record new) (newer : old.Newer new)
      (now : next.pending.get old.key = some new)
  | synced (sent : event = .deleteSynced) (carried : ∃ batch ∈ manager.sent, old ∈ batch)
      (now : next.pending.get old.key = none)
  | removed (own : event = .remove old.key old.connectionID old.bindingEpoch)
      (now : next.pending.get old.key = none)

section

variable (step : (checkpointMachine configured).step manager event = some next)

include step

theorem slotStep (inOrder : InOrder manager event) (found : manager.pending.get old.key = some old) : SlotStep manager event next old := by
  cases event with
  | record new =>
    cases step
    rcases Slots.get_record manager.pending new old.key with ⟨same, _⟩ | ⟨isKey, now, uncovered⟩
    · exact .kept (same.trans found)
    · refine .replaced new rfl ?_ now
      rcases inOrder old (isKey ▸ found) with same | later
      · exact .inr ⟨same, not_le.mp fun covered => uncovered old found ⟨same, covered⟩⟩
      · exact .inl later
  | remove key connectionID bindingEpoch =>
    cases step
    rcases Slots.get_deleteIf manager.pending key old.key _ with same | ⟨now, rfl, own⟩
    · exact .kept (same.trans found)
    · obtain ⟨rfl, rfl⟩ := of_decide_eq_true (own old found)
      exact .removed rfl now
  | flush order =>
    obtain ⟨_, _, rfl⟩ := flush_step step
    exact .kept found
  | sync success =>
    obtain ⟨_, _, _, rfl⟩ := sync_step step
    cases success <;> exact .kept found
  | deleteSynced =>
    obtain ⟨batch, sent, rfl⟩ := deleteSynced_step step
    rcases Slots.get_deleteSynced manager.pending batch old.key with same | ⟨now, carried⟩
    · exact .kept (same.trans found)
    · exact .synced rfl ⟨batch, sent, carried old found⟩ now

/-- The checkpoint or a newer one of its slot is pending, has been sent or has been removed by its own
connection. -/
def Accounted (manager : Manager) (checkpoint : Checkpoint) : Prop :=
  ∃ last, last.key = checkpoint.key ∧ (last = checkpoint ∨ checkpoint.Newer last) ∧
    (manager.pending.get last.key = some last ∨ last ∈ manager.synced ∨ last ∈ manager.removed)

/-- What has been sent has been counted as such, and nothing recorded is lost. -/
structure Tracked (manager : Manager) : Prop where
  sent : ∀ batch ∈ manager.sent, ∀ checkpoint ∈ batch, checkpoint ∈ manager.synced
  accounted : ∀ checkpoint ∈ manager.recorded, Accounted manager checkpoint

omit step in
theorem Checkpoint.Newer.trans {first second third : Checkpoint} (earlier : first.Newer second)
    (later : second.Newer third) : first.Newer third := by
  unfold Checkpoint.Newer Checkpoint.SameBinding at *
  grind

/-- The lists of a manager only grow, a batch is counted when it is sent, and only a record is recorded. -/
theorem lists_step :
    manager.synced ⊆ next.synced ∧ manager.removed ⊆ next.removed ∧
      (∀ batch ∈ next.sent, batch ∈ manager.sent ∨ batch ⊆ next.synced) ∧
      ∀ checkpoint ∈ next.recorded, checkpoint ∈ manager.recorded ∨ event = .record checkpoint := by
  have same : manager.synced ⊆ manager.synced ∧ manager.removed ⊆ manager.removed :=
    ⟨Subset.refl _, Subset.refl _⟩
  cases event with
  | record new =>
    cases step
    refine ⟨same.1, same.2, fun _ => .inl, fun checkpoint member => ?_⟩
    exact (mem_cons.mp member).elim (fun isNew => .inr (isNew ▸ rfl)) .inl
  | remove key connectionID bindingEpoch =>
    cases step
    exact ⟨same.1, subset_append_right _ _, fun _ => .inl, fun _ => .inl⟩
  | flush order =>
    obtain ⟨_, _, rfl⟩ := flush_step step
    exact ⟨same.1, same.2, fun _ => .inl, fun _ => .inl⟩
  | sync success =>
    obtain ⟨batch, _, _, rfl⟩ := sync_step step
    cases success with
    | false => exact ⟨same.1, same.2, fun _ => .inl, fun _ => .inl⟩
    | true =>
      refine ⟨subset_append_right _ _, same.2, fun other isBatch => .inr ?_, fun _ => .inl⟩
      cases isBatch
      exact subset_append_left _ _
  | deleteSynced =>
    obtain ⟨_, _, rfl⟩ := deleteSynced_step step
    exact ⟨same.1, same.2, by simp, fun _ => .inl⟩

theorem Accounted.kept (accounted : Accounted manager checkpoint)
    (sent : ∀ batch ∈ manager.sent, ∀ carried ∈ batch, carried ∈ manager.synced) (inOrder : InOrder manager event) :
    Accounted next checkpoint := by
  obtain ⟨syncedGrows, removedGrows, _⟩ := lists_step step
  obtain ⟨last, sameKey, atLeast, found | synced | removed⟩ := accounted
  · cases slotStep step inOrder found with
    | kept same => exact ⟨last, sameKey, atLeast, .inl same⟩
    | replaced new _ newer now =>
      have newKey := Slots.key_of_get now
      refine ⟨new, newKey.trans sameKey, .inr ?_, .inl (newKey ▸ now)⟩
      exact atLeast.elim (fun same => same ▸ newer) fun earlier => earlier.trans newer
    | synced _ carried =>
      obtain ⟨batch, isSent, member⟩ := carried
      exact ⟨last, sameKey, atLeast, .inr (.inl (syncedGrows (sent batch isSent last member)))⟩
    | removed own =>
      subst own
      cases step
      exact ⟨last, sameKey, atLeast, .inr (.inr (by simp [found]))⟩
  · exact ⟨last, sameKey, atLeast, .inr (.inl (syncedGrows synced))⟩
  · exact ⟨last, sameKey, atLeast, .inr (.inr (removedGrows removed))⟩

end

/-- What is recorded is in its slot, or the slot has one of its binding that is as far. -/
theorem accounted_record (step : (checkpointMachine configured).step manager (.record checkpoint) = some next) :
    Accounted next checkpoint := by
  cases step
  rcases Slots.get_record manager.pending checkpoint checkpoint.key with ⟨same, covered⟩ | ⟨_, now, _⟩
  · obtain ⟨current, found, sameBinding, further⟩ := covered rfl
    have isKey := Slots.key_of_get found
    refine ⟨current, isKey, ?_, .inl (isKey ▸ same.trans found)⟩
    rcases further.eq_or_lt with equal | larger
    · obtain ⟨sameAddress, sameSession⟩ := Prod.mk.inj isKey
      obtain ⟨sameConnection, sameEpoch⟩ := sameBinding
      cases current
      cases checkpoint
      simp_all
    · exact .inr (.inr ⟨⟨sameBinding.1.symm, sameBinding.2.symm⟩, larger⟩)
  · exact ⟨checkpoint, rfl, .inl rfl, .inl now⟩

theorem tracked_step (tracked : Tracked manager) (inOrder : InOrder manager event)
    (step : (checkpointMachine configured).step manager event = some next) : Tracked next := by
  obtain ⟨syncedGrows, _, sent, recorded⟩ := lists_step step
  constructor
  · intro batch isSent checkpoint member
    exact (sent batch isSent).elim (fun before => syncedGrows (tracked.sent batch before checkpoint member))
      fun counted => counted member
  · intro checkpoint member
    rcases recorded checkpoint member with before | rfl
    · exact (tracked.accounted checkpoint before).kept step tracked.sent inOrder
    · exact accounted_record step

end Runs

section Flush

variable {configured : ℤ} {manager next : Manager} {event : ManagerEvent} {checkpoint : Checkpoint}

theorem checkpointLimit_pos (configured : ℤ) : 0 < checkpointLimit configured := by
  unfold checkpointLimit
  split_ifs <;> omega

theorem mem_batchesFrom {size rounds : ℕ} (positive : 0 < size) {checkpoints : List Checkpoint}
    (enough : checkpoints.length ≤ rounds) (member : checkpoint ∈ checkpoints) :
    checkpoint ∈ (batchesFrom size rounds checkpoints).flatten := by
  induction rounds generalizing checkpoints with
  | zero => simp_all
  | succ rounds ih =>
    cases checkpoints with
    | nil => simp at member
    | cons first others =>
      rw [batchesFrom.eq_def, flatten_cons, mem_append]
      rw [← take_append_drop size (first :: others), mem_append] at member
      refine member.imp_right fun later => ih ?_ later
      simp only [length_drop, length_cons] at enough ⊢
      omega

/-- Until a call fails, what a flush has to send is sent or still to be sent. -/
theorem due_step (step : (checkpointMachine configured).step manager event = some next)
    (succeeds : event ≠ .sync false) (due : checkpoint ∈ manager.batches.flatten ∨ checkpoint ∈ manager.synced) :
    checkpoint ∈ next.batches.flatten ∨ checkpoint ∈ next.synced := by
  cases event with
  | record new | remove key connectionID bindingEpoch => cases step; exact due
  | flush order =>
    obtain ⟨idle, _, rfl⟩ := flush_step step
    rw [idle] at due
    exact .inr (due.resolve_left (not_mem_nil ))
  | sync success =>
    obtain ⟨batch, batches, first, rfl⟩ := sync_step step
    cases success with
    | false => exact (succeeds rfl).elim
    | true =>
      rw [first, flatten_cons, mem_append] at due
      rcases due with (here | later) | before
      · exact .inr (mem_append_left _ here)
      · exact .inl later
      · exact .inr (mem_append_right _ before)
  | deleteSynced =>
    obtain ⟨_, _, rfl⟩ := deleteSynced_step step
    exact due

/-- A flush of which every call succeeds sends what the slots had when it copied them, whatever is recorded
and removed meanwhile. -/
theorem flush_sends {order : List Checkpoint} {events : List ManagerEvent} {final : Manager}
    (run : (checkpointMachine configured).run manager (.flush order :: events) = some final)
    (succeed : .sync false ∉ events) (ended : final.batches = []) (member : checkpoint ∈ manager.pending) :
    checkpoint ∈ final.synced := by
  obtain ⟨copied, step, rest⟩ := Machine.run_cons_eq_some.mp run
  have due : checkpoint ∈ copied.batches.flatten ∨ checkpoint ∈ copied.synced := by
    obtain ⟨_, perm, rfl⟩ := flush_step step
    have inAddress : checkpoint ∈ order.filter fun other => other.address = checkpoint.address := by
      simp [perm.mem_iff, member]
    obtain ⟨batch, isBatch, inBatch⟩ :=
      List.mem_flatten.mp (mem_batchesFrom (checkpointLimit_pos configured) le_rfl inAddress)
    simp only [batchesOf, List.mem_flatten, List.mem_flatMap, List.mem_dedup, List.mem_map]
    exact .inl ⟨batch, ⟨checkpoint.address, ⟨checkpoint, perm.mem_iff.mpr member, rfl⟩, isBatch⟩, inBatch⟩
  clear run step
  induction events generalizing copied with
  | nil =>
    cases rest
    rw [ended] at due
    exact due.resolve_left List.not_mem_nil
  | cons event events ih =>
    obtain ⟨next, step, rest⟩ := Machine.run_cons_eq_some.mp rest
    have here : event ≠ .sync false := fun failed => succeed (failed ▸ List.mem_cons_self)
    exact ih (fun later => succeed (List.mem_cons_of_mem _ later)) next rest (due_step step here due)

/-- The task that flushes can always go on, and ends its flush. -/
theorem flush_ends (configured : ℤ) (manager : Manager) :
    ∃ events final, (checkpointMachine configured).run manager events = some final ∧
      (∀ event ∈ events, event = .sync true ∨ event = .deleteSynced) ∧ final.batches = [] ∧ final.sent = none := by
  obtain ⟨pending, batches, sent, recorded, synced, removed⟩ := manager
  induction batches generalizing pending sent synced with
  | nil =>
    cases sent with
    | none => exact ⟨[], _, rfl, by simp, rfl, rfl⟩
    | some batch => exact ⟨[.deleteSynced], _, rfl, by simp, rfl, rfl⟩
  | cons batch batches ih =>
    cases sent with
    | none =>
      obtain ⟨events, final, run, only, ended⟩ := ih pending (some batch) (batch ++ synced)
      exact ⟨.sync true :: events, final, run, forall_mem_cons.mpr ⟨.inl rfl, only⟩, ended⟩
    | some last =>
      obtain ⟨events, final, run, only, ended⟩ := ih (pending.deleteSynced last) (some batch) (batch ++ synced)
      refine ⟨.deleteSynced :: .sync true :: events, final, run, ?_, ended⟩
      exact forall_mem_cons.mpr ⟨.inr rfl, forall_mem_cons.mpr ⟨.inl rfl, only⟩⟩

/-- In a run that records in the order of the bindings, a slot gets newer checkpoints only and is emptied by a
call that carried its checkpoint or by its own connection. Nothing recorded is lost, and what is pending is
sent by a flush of which every call succeeds. -/
theorem newest_checkpoint_synced {events : List ManagerEvent}
    (run : (checkpointMachine configured).run {} events = some manager)
    (inOrder : (checkpointMachine configured).Along InOrder {} events) :
    (∀ event next old, (checkpointMachine configured).step manager event = some next → InOrder manager event →
        manager.pending.get old.key = some old → SlotStep manager event next old) ∧
      (∀ batch ∈ manager.sent, ∀ checkpoint ∈ batch, checkpoint ∈ manager.synced) ∧
      (∀ checkpoint ∈ manager.recorded, Accounted manager checkpoint) ∧
      (∀ order later final, (checkpointMachine configured).run manager (.flush order :: later) = some final →
        .sync false ∉ later → final.batches = [] →
        ∀ key checkpoint, manager.pending.get key = some checkpoint → checkpoint ∈ final.synced) ∧
      ∃ later final, (checkpointMachine configured).run manager later = some final ∧ .sync false ∉ later ∧
        final.batches = [] ∧ final.sent = none ∧
        ∃ flushed, (checkpointMachine configured).step final (.flush final.pending) = some flushed := by
  have tracked : Tracked manager := by
    refine Machine.invariant_along (fun _ _ _ kept ordered step => tracked_step kept ordered step) run inOrder ?_
    exact ⟨by simp, by simp⟩
  refine ⟨fun event next old step ordered found => slotStep step ordered found, tracked.sent, tracked.accounted,
    fun order later final goesOn succeed ended key checkpoint found =>
      flush_sends goesOn succeed ended (Slots.mem_of_get found), ?_⟩
  obtain ⟨later, final, goesOn, only, ended, notSent⟩ := flush_ends configured manager
  refine ⟨later, final, goesOn, fun failed => ?_, ended, notSent, _, if_pos ⟨ended, notSent, List.Perm.refl _⟩⟩
  rcases only _ failed with isSync | isDelete
  · cases isSync
  · cases isDelete

end Flush

section Concrete

private def heartbeat (connectionID : String) (bindingEpoch sequence : ℕ) : Checkpoint :=
  ⟨"node", "session", connectionID, bindingEpoch, sequence⟩

private def resumed : List ManagerEvent :=
  [.record (heartbeat "old" 1 3), .flush [heartbeat "old" 1 3], .sync true, .record (heartbeat "new" 2 5), .deleteSynced]

theorem resumed_checkpoint_synced :
    ∃ final, (checkpointMachine 2).run {} resumed = some final ∧
      final.pending.get ("node", "session") = some (heartbeat "new" 2 5) ∧
      ∀ checkpoint ∈ final.recorded, Accounted final checkpoint := by
  refine Machine.exists_run rfl fun run => ⟨by decide, ?_⟩
  exact (newest_checkpoint_synced run (by decide)).2.2.1

/-- A late heartbeat of the replaced connection takes the slot, so what the new connection has acknowledged
is neither pending nor sent, though every call has succeeded. -/
theorem late_heartbeat_displaces_checkpoint :
    ∃ final, (checkpointMachine 500).run {} [.record (heartbeat "new" 2 5), .record (heartbeat "old" 1 3),
        .flush [heartbeat "old" 1 3], .sync true, .deleteSynced] = some final ∧
      heartbeat "new" 2 5 ∈ final.recorded ∧ final.pending = [] ∧ final.batches = [] ∧
      final.synced = [heartbeat "old" 1 3] ∧ final.removed = [] := by
  refine ⟨_, rfl, ?_⟩
  decide

end Concrete

end Cordis.Gateway
