import Cordis.Session.Dedup

/-! # The deduplication store refines an expiring set

Every call of the store is one call of the expiring set over its keys: an addition that expires at
the unwrapped sum, a removal, or nothing at all. Rotation is invisible. The agreement is kept by
every call at a clock that never goes back, provided the expiry of an addition fits in 64 bits;
the answer of `checkAndAdd` is then decided by the history alone.
-/

namespace Cordis.Session

open Function ExpiringSet List

inductive DedupCall where
  | checkAndAdd (kind : UInt8) (routeID eventID : Int64) (eventType : String) (ttl : ℤ)
  | remove (kind : UInt8) (routeID eventID : Int64) (eventType : String)
  | rotateAll
deriving DecidableEq, Repr

/-- One call at the time its clock reads. -/
def DedupStore.step (ds : DedupStore) : ℤ × DedupCall → DedupStore
  | (now, .checkAndAdd kind routeID eventID eventType ttl) =>
      (ds.checkAndAdd now kind routeID eventID eventType ttl).1
  | (_, .remove kind routeID eventID eventType) => ds.remove kind routeID eventID eventType
  | (now, .rotateAll) => ds.rotateAll now

/-- The store after a history of timed calls. -/
def dedupAfter (history : List (ℤ × DedupCall)) : DedupStore := history.foldl .step newDedupStore

/-- What a call means for the expiring set of its keys. -/
def DedupCall.meaning : ℤ × DedupCall → ℤ × ExpiringSet.Call DedupKey ℤ
  | (now, .checkAndAdd kind routeID eventID eventType ttl) =>
      (now, if eventID = 0 then .idle else .add (dedupKey kind routeID eventID eventType) (now + ttl))
  | (now, .remove kind routeID eventID eventType) =>
      (now, if eventID = 0 then .idle else .remove (dedupKey kind routeID eventID eventType))
  | (now, .rotateAll) => (now, .idle)

/-- The addition, if the call is one, expires at a representable time. -/
def DedupCall.Fits : ℤ × DedupCall → Prop
  | (now, .checkAndAdd _ _ _ _ ttl) => -2 ^ 63 ≤ now ∧ 0 < ttl ∧ now + ttl < 2 ^ 63
  | _ => True

instance : DecidablePred DedupCall.Fits
  | (_, .checkAndAdd ..) => inferInstanceAs (Decidable (_ ∧ _ ∧ _))
  | (_, .remove ..) => isTrue trivial
  | (_, .rotateAll) => isTrue trivial

namespace DedupStore

/-- The tables that can hold a key are the generations of its shard. -/
def tables (ds : DedupStore) (key : DedupKey) (slot : Fin dedupNumGens) : DedupKey → Option ℤ :=
  ((ds.shards (shardOf key)).gens slot).entries

theorem tables_update_other {ds : DedupStore} {key other : DedupKey} {shard : DedupShard}
    (frame : ∀ slot, (shard.gens slot).entries other = ((ds.shards (shardOf key)).gens slot).entries other)
    (slot : Fin dedupNumGens) :
    tables ⟨update ds.shards (shardOf key) shard⟩ other slot other =
      ds.tables other slot other := by
  unfold tables
  by_cases same : shardOf other = shardOf key
  · simp [same, frame]
  · simp only [update_of_ne same]

variable {ds : DedupStore} {set : ExpiringSet DedupKey ℤ} {now : ℤ}

theorem insert_entries_other (shard : DedupShard) {key other : DedupKey} (distinct : other ≠ key) (expiresAt : ℤ)
    (slot : Fin dedupNumGens) :
    ((shard.insert key expiresAt).gens slot).entries other = (shard.gens slot).entries other := by
  by_cases atHead : slot = shard.head
  · subst atHead
    simp [DedupShard.insert, DedupGen.insert, update_of_ne distinct]
  · simp only [DedupShard.insert, update_of_ne atHead]

theorem agree_checkAndAdd (agree : Agree ds.tables set now) {kind : UInt8} {routeID eventID : Int64}
    {eventType : String} {ttl : ℤ}
    (fits : DedupCall.Fits (now, .checkAndAdd kind routeID eventID eventType ttl)) :
    Agree (ds.checkAndAdd now kind routeID eventID eventType ttl).1.tables
      (set.apply (DedupCall.meaning (now, .checkAndAdd kind routeID eventID eventType ttl))) now := by
  unfold checkAndAdd DedupCall.meaning
  by_cases zero : eventID = 0
  · simp only [zero, ↓reduceIte]
    exact agree
  simp only [zero, ↓reduceIte]
  generalize dedupKey kind routeID eventID eventType = key
  obtain ⟨lower, positive, upper⟩ := fits
  rw [wrap64_of_fits (by omega) upper]
  by_cases held : (ds.shards (shardOf key)).contains key now = true
  · simp only [held, ↓reduceIte]
    exact agree.reject (((ds.shards (shardOf key)).contains_iff key now).mp held) _
  · simp only [held, Bool.false_eq_true, ↓reduceIte]
    refine agree.add (ds.shards (shardOf key)).head
      (fun live => held (((ds.shards (shardOf key)).contains_iff key now).mpr live)) ?_ ?_ ?_
    · simp [tables, DedupShard.insert, DedupGen.insert]
    · intro slot away
      simp [tables, DedupShard.insert, update_of_ne away]
    · intro other distinct slot
      exact tables_update_other (insert_entries_other _ distinct _) slot

/-- The store rejects what one of its tables still holds. -/
theorem answer_iff_live {eventID : Int64} (nonzero : eventID ≠ 0) (kind : UInt8) (routeID : Int64)
    (eventType : String) (ttl : ℤ) :
    (ds.checkAndAdd now kind routeID eventID eventType ttl).2 = false ↔
      Live (ds.tables (dedupKey kind routeID eventID eventType)) now (dedupKey kind routeID eventID eventType) := by
  unfold checkAndAdd
  simp only [nonzero, ↓reduceIte]
  generalize dedupKey kind routeID eventID eventType = key
  have found := (ds.shards (shardOf key)).contains_iff key now
  by_cases held : (ds.shards (shardOf key)).contains key now = true
  · simp only [held, ↓reduceIte, true_iff]
    exact found.mp held
  · simp only [held, Bool.false_eq_true, ↓reduceIte, Bool.true_eq_false, false_iff]
    exact fun live => held (found.mpr live)

/-- The store answers what a set that it agrees with holds. -/
theorem agree_answer (agree : Agree ds.tables set now) {eventID : Int64} (nonzero : eventID ≠ 0) (kind : UInt8)
    (routeID : Int64) (eventType : String) (ttl : ℤ) :
    (ds.checkAndAdd now kind routeID eventID eventType ttl).2 = false ↔
      set.Holds now (dedupKey kind routeID eventID eventType) :=
  (answer_iff_live nonzero kind routeID eventType ttl).trans (agree now le_rfl _)

theorem delete_entries (shard : DedupShard) (key : DedupKey) (slot : Fin dedupNumGens) :
    ((shard.delete key).gens slot).entries = update (shard.gens slot).entries key none := by
  unfold DedupShard.delete
  dsimp only
  split
  · rfl
  · next unvisited =>
    -- a slot the loop does not visit is unused, so the deletion would change nothing
    have idle : shard.len ≤ slot.val := by
      by_contra used
      exact unvisited (shard.exists_slot (Nat.lt_of_not_le used))
    funext other
    by_cases same : other = key
    · subst same
      rw [update_self, shard.unused slot idle]
    · rw [update_of_ne same]

theorem agree_remove (agree : Agree ds.tables set now) (kind : UInt8) (routeID eventID : Int64)
    (eventType : String) :
    Agree (ds.remove kind routeID eventID eventType).tables
      (set.apply (DedupCall.meaning (now, .remove kind routeID eventID eventType))) now := by
  unfold remove DedupCall.meaning
  by_cases zero : eventID = 0
  · simp only [zero, ↓reduceIte]
    exact agree
  simp only [zero, ↓reduceIte]
  generalize dedupKey kind routeID eventID eventType = key
  refine agree.remove ?_ ?_
  · intro slot
    simp [tables, delete_entries]
  · intro other distinct slot
    refine tables_update_other (fun slot => ?_) slot
    rw [delete_entries, update_of_ne distinct]

/-- A rotation only discards a table whose entries have all run out. -/
theorem rotate_entries (shard : DedupShard) (now : ℤ) (slot : Fin dedupNumGens) :
    (shard.rotate now).gens slot = shard.gens slot ∨
      ((shard.rotate now).gens slot = .empty ∧
        ∀ key expiresAt, (shard.gens slot).entries key = some expiresAt → expiresAt ≤ now) := by
  unfold DedupShard.rotate
  dsimp only
  split
  · exact .inl rfl
  · next opened =>
    by_cases same : slot = Fin.ofNat dedupNumGens ((shard.head.val + 1) % dedupNumGens)
    · subst same
      refine .inr ⟨update_self .., ?_⟩
      intro key expiresAt entry
      have bounded := (shard.gens _).bounded key expiresAt entry
      by_cases full : shard.len = dedupNumGens
      · have runOut : ¬ _ := fun late => opened ⟨full, late⟩
        omega
      · -- while the ring fills, the next slot has never been used
        have filling := shard.filling (Nat.lt_of_le_of_ne shard.full full)
        have bound := shard.full
        rw [shard.unused _ (by simp only [Fin.val_ofNat, dedupNumGens] at *; omega) key] at entry
        cases entry
    · exact .inl (update_of_ne same ..)

theorem agree_rotateAll (agree : Agree ds.tables set now) : Agree (ds.rotateAll now).tables set now := by
  refine agree.discard ?_ ?_
  · intro key slot expiresAt entry
    rcases rotate_entries (ds.shards (shardOf key)) now slot with same | ⟨emptied, _⟩
    · rwa [tables, rotateAll, same] at entry
    · rw [tables, rotateAll, emptied] at entry
      cases entry
  · intro key slot expiresAt entry alive
    rcases rotate_entries (ds.shards (shardOf key)) now slot with same | ⟨_, runOut⟩
    · rwa [tables, rotateAll, same]
    · exact absurd (runOut key expiresAt entry) (not_le_of_gt alive)

/-- One call keeps the agreement. -/
theorem agree_step (agree : Agree ds.tables set now) (call : DedupCall) (fits : DedupCall.Fits (now, call)) :
    Agree (ds.step (now, call)).tables (set.apply (DedupCall.meaning (now, call))) now := by
  cases call with
  | checkAndAdd kind routeID eventID eventType ttl => exact agree_checkAndAdd agree fits
  | remove kind routeID eventID eventType => exact agree_remove agree kind routeID eventID eventType
  | rotateAll => exact agree_rotateAll agree

end DedupStore

/-- Calls at non-decreasing times, none later than `now`, each addition expiring at a representable
time. -/
structure WellTimed (history : List (ℤ × DedupCall)) (now : ℤ) : Prop where
  ordered : (history.map Prod.fst).Pairwise (· ≤ ·)
  past : ∀ timed ∈ history, timed.1 ≤ now
  fits : ∀ timed ∈ history, DedupCall.Fits timed

/-- The calls before one of a history are well timed at that call's time. -/
theorem WellTimed.before {earlier later : List (ℤ × DedupCall)} {last : ℤ × DedupCall} {now : ℤ}
    (timed : WellTimed (earlier ++ last :: later) now) : WellTimed earlier last.1 where
  ordered := by
    have ordered := timed.ordered
    rw [map_append, pairwise_append] at ordered
    exact ordered.1
  past := by
    intro call member
    have ordered := timed.ordered
    rw [map_append, pairwise_append] at ordered
    exact ordered.2.2 call.1 (mem_map_of_mem member) last.1 (by simp)
  fits := fun call member => timed.fits call (mem_append_left _ member)

/-- After every well-timed history the store agrees with the expiring set of the same history. -/
theorem dedupAfter_agree (history : List (ℤ × DedupCall)) (now : ℤ) (timed : WellTimed history now) :
    Agree (dedupAfter history).tables (after (history.map DedupCall.meaning)) now := by
  induction history using reverseRecOn generalizing now with
  | nil =>
    intro time _ key
    constructor
    · rintro ⟨slot, expiresAt, entry, _⟩
      cases entry
    · exact fun holds => (not_holds_empty time key holds).elim
  | append_singleton history last ih =>
    have member : last ∈ history ++ [last] := mem_append_right _ (mem_singleton_self _)
    obtain ⟨time, call⟩ := last
    have step := DedupStore.agree_step (ih time timed.before) call (timed.fits _ member)
    rw [map_append, map_singleton, after_append, dedupAfter, foldl_append]
    exact step.advance (timed.past _ member)

variable {eventID routeID : Int64} {kind : UInt8} {eventType : String}

/-- The store answers what the expiring set of the history holds. -/
theorem checkAndAdd_holds {history : List (ℤ × DedupCall)} {now : ℤ} (timed : WellTimed history now)
    (nonzero : eventID ≠ 0) (kind : UInt8) (routeID : Int64) (eventType : String)
    (ttl : ℤ) :
    ((dedupAfter history).checkAndAdd now kind routeID eventID eventType ttl).2 = false ↔
      (after (history.map DedupCall.meaning)).Holds now
        (dedupKey kind routeID eventID eventType) :=
  DedupStore.agree_answer (dedupAfter_agree history now timed) nonzero kind routeID eventType ttl

/-- An earlier `checkAndAdd` of the same key answered true, its lifetime lasts beyond `now`, and no
`remove` of the key came after it. -/
def Remembered (history : List (ℤ × DedupCall)) (now : ℤ) (kind : UInt8) (routeID eventID : Int64)
    (eventType : String) : Prop :=
  ∃ earlier time sameType ttl later,
    history = earlier ++ (time, .checkAndAdd kind routeID eventID sameType ttl) :: later ∧
    hashEventType sameType = hashEventType eventType ∧
    ((dedupAfter earlier).checkAndAdd time kind routeID eventID sameType ttl).2 = true ∧
    now < time + ttl ∧
    ∀ timed ∈ later, ∀ removedType, timed.2 = .remove kind routeID eventID removedType →
      hashEventType removedType ≠ hashEventType eventType

private theorem dedupKey_congr {sameType : String} (same : hashEventType sameType = hashEventType eventType) :
    dedupKey kind routeID eventID sameType = dedupKey kind routeID eventID eventType := by
  simp only [dedupKey, same]

variable {timed : ℤ × DedupCall}

private theorem meaning_eq_add {time expires : ℤ}

    (meaning : DedupCall.meaning timed = (time, .add (dedupKey kind routeID eventID eventType) expires)) :
    ∃ sameType ttl, timed = (time, .checkAndAdd kind routeID eventID sameType ttl) ∧
      hashEventType sameType = hashEventType eventType ∧ expires = time + ttl := by
  obtain ⟨at_, call⟩ := timed
  cases call with
  | checkAndAdd kind' routeID' eventID' sameType ttl =>
    by_cases zero : eventID' = 0
    · simp [DedupCall.meaning, zero] at meaning
    · simp only [DedupCall.meaning, zero, ↓reduceIte, dedupKey, Prod.mk.injEq,
        Call.add.injEq, DedupKey.mk.injEq] at meaning
      obtain ⟨rfl, ⟨rfl, rfl, same, rfl⟩, rfl⟩ := meaning
      exact ⟨sameType, ttl, rfl, same, rfl⟩
  | remove kind' routeID' eventID' removedType =>
    by_cases zero : eventID' = 0 <;> simp [DedupCall.meaning, zero] at meaning
  | rotateAll => simp [DedupCall.meaning] at meaning

private theorem meaning_eq_remove (nonzero : eventID ≠ 0) :
    (DedupCall.meaning timed).2 = .remove (dedupKey kind routeID eventID eventType) ↔
      ∃ removedType, timed.2 = .remove kind routeID eventID removedType ∧
        hashEventType removedType = hashEventType eventType := by
  obtain ⟨time, call⟩ := timed
  cases call with
  | checkAndAdd kind' routeID' eventID' sameType ttl =>
    by_cases zero : eventID' = 0 <;> simp [DedupCall.meaning, zero]
  | rotateAll => simp [DedupCall.meaning]
  | remove kind' routeID' eventID' removedType =>
    by_cases zero : eventID' = 0
    · simp only [DedupCall.meaning, zero, ↓reduceIte, reduceCtorEq, false_iff, not_exists, not_and,
        DedupCall.remove.injEq]
      rintro _ ⟨_, _, same, _⟩
      exact absurd same.symm nonzero
    · simp only [DedupCall.meaning, zero, ↓reduceIte, Call.remove.injEq, dedupKey,
        DedupKey.mk.injEq, DedupCall.remove.injEq]
      constructor
      · rintro ⟨rfl, rfl, same, rfl⟩
        exact ⟨removedType, ⟨rfl, rfl, rfl, rfl⟩, same⟩
      · rintro ⟨_, ⟨rfl, rfl, rfl, rfl⟩, same⟩
        exact ⟨rfl, rfl, same, rfl⟩

/-- After every history of calls at non-decreasing times, at any rotation cadence, `checkAndAdd`
rejects an event exactly when an earlier accepted call of the same key still lasts and the key was
not removed since. -/
theorem checkAndAdd_rejects_iff_remembered (history : List (ℤ × DedupCall)) (now : ℤ)
    (timed : WellTimed history now) (kind : UInt8) (routeID eventID : Int64) (nonzero : eventID ≠ 0)
    (eventType : String) (ttl : ℤ) :
    ((dedupAfter history).checkAndAdd now kind routeID eventID eventType ttl).2 = false ↔
      Remembered history now kind routeID eventID eventType := by
  have past : ∀ call ∈ history.map DedupCall.meaning, call.1 ≤ now := by
    intro call member
    obtain ⟨timedCall, present, rfl⟩ := List.mem_map.mp member
    have bound := timed.past timedCall present
    rcases timedCall with ⟨time, _ | _ | _⟩ <;> exact bound
  rw [checkAndAdd_holds timed nonzero, ExpiringSet.holds_after_iff _ _ _ past]
  constructor
  · rintro ⟨_, time, expires, _, split, free, alive, unremoved⟩
    obtain ⟨earlier, rest, rfl, rfl, tail⟩ := List.map_eq_append_iff.mp split
    obtain ⟨call, later, rfl, meaning, rfl⟩ := List.map_eq_cons_iff.mp tail
    obtain ⟨sameType, ttl', rfl, same, rfl⟩ := meaning_eq_add meaning
    refine ⟨earlier, time, sameType, ttl', later, rfl, same, ?_, alive, ?_⟩
    · have rejected := checkAndAdd_holds timed.before nonzero kind routeID sameType ttl'
      rw [dedupKey_congr same] at rejected
      exact Bool.of_not_eq_false fun held => free (rejected.mp held)
    · intro timed member removedType removal equal
      exact unremoved _ (List.mem_map_of_mem member)
        ((meaning_eq_remove nonzero).mpr ⟨removedType, removal, equal⟩)
  · rintro ⟨earlier, time, sameType, ttl', later, rfl, same, accepted, alive, unremoved⟩
    refine ⟨earlier.map DedupCall.meaning, time, time + ttl', later.map DedupCall.meaning, ?_, ?_, alive, ?_⟩
    · simp [DedupCall.meaning, nonzero, dedupKey_congr same]
    · have rejected := checkAndAdd_holds timed.before nonzero kind routeID sameType ttl'
      rw [dedupKey_congr same] at rejected
      exact fun holds => Bool.false_ne_true ((rejected.mpr holds).symm.trans accepted)
    · intro call member removal
      obtain ⟨timedCall, present, rfl⟩ := List.mem_map.mp member
      obtain ⟨removedType, removed, equal⟩ := (meaning_eq_remove nonzero).mp removal
      exact unremoved timedCall present removedType removed equal

/-- Rapid rotations do not make the store forget an addition that still lasts. -/
theorem rotated_event_still_rejected :
    let history : List (ℤ × DedupCall) :=
      [(0, .checkAndAdd routeKindGuild 1 100 "guild.updated" 120), (5, .rotateAll), (5, .rotateAll),
        (6, .rotateAll), (7, .rotateAll), (8, .rotateAll)]
    WellTimed history 119 ∧
      ((dedupAfter history).checkAndAdd 119 routeKindGuild 1 100 "guild.updated" 120).2 = false := by
  intro history
  have timed : WellTimed history 119 := ⟨by decide, by decide, by decide⟩
  refine ⟨timed, (checkAndAdd_rejects_iff_remembered history 119 timed routeKindGuild 1 100 (by decide)
    "guild.updated" 120).mpr ?_⟩
  exact ⟨[], 0, "guild.updated", 120, _, rfl, rfl, rfl, by decide, by simp⟩

/-- A lifetime that overflows the 64-bit clock wraps to the past, so the same event is accepted
again at once although its first acceptance still lasts. -/
theorem overflowing_lifetime_forgotten :
    let history : List (ℤ × DedupCall) :=
      [(1790000000000000000, .checkAndAdd routeKindGuild 1 100 "guild.updated" (2 ^ 63 - 1))]
    ((dedupAfter history).checkAndAdd 1790000000000000000 routeKindGuild 1 100 "guild.updated"
      (2 ^ 63 - 1)).2 = true ∧
    Remembered history 1790000000000000000 routeKindGuild 1 100 "guild.updated" := by
  refine ⟨by decide, [], _, "guild.updated", _, [], rfl, rfl, by decide, by decide, by simp⟩

end Cordis.Session
