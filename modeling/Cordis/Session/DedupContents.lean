import Cordis.Session.DedupRefinement

/-! # What the deduplication store holds

Whatever the clock reads, the store holds only keys that were added to it. `Only` says that all its
entries are of keys with some property, and is kept by every call that adds no other key. Under a
clock that never goes back, `Marks` says when one key is held, and the calls of other keys leave it.
-/

namespace Cordis.Session

open Session DedupCall Function

/-- Every entry is of a key with the property. -/
def DedupStore.Only (ds : DedupStore) (allowed : DedupKey → Prop) : Prop :=
  ∀ shard slot key expiresAt, ((ds.shards shard).gens slot).entries key = some expiresAt → allowed key

namespace DedupStore

variable {ds : DedupStore} {allowed wider : DedupKey → Prop} {now : ℤ} {kind : UInt8} {routeID eventID : Int64}
  {eventType : String} {ttl : ℤ}

section

variable (only : ds.Only allowed)

include only

theorem Only.mono (imp : ∀ key, allowed key → wider key) : ds.Only wider :=
  fun shard slot key expiresAt entry => imp key (only shard slot key expiresAt entry)

theorem Only.checkAndAdd (added : allowed (dedupKey kind routeID eventID eventType)) :
    (ds.checkAndAdd now kind routeID eventID eventType ttl).1.Only allowed := by
  unfold DedupStore.checkAndAdd
  dsimp only
  split_ifs
  · exact only
  · exact only
  · intro shard slot key expiresAt entry
    by_cases home : shard = shardOf (dedupKey kind routeID eventID eventType)
    · subst home
      simp only [update_self, DedupShard.insert] at entry
      by_cases current : slot = (ds.shards (shardOf (dedupKey kind routeID eventID eventType))).head
      · subst current
        simp only [update_self, DedupGen.insert] at entry
        by_cases same : key = dedupKey kind routeID eventID eventType
        · exact same ▸ added
        · rw [update_of_ne same] at entry
          exact only _ _ _ _ entry
      · rw [update_of_ne current] at entry
        exact only _ _ _ _ entry
    · simp only [update_of_ne home] at entry
      exact only _ _ _ _ entry

/-- What is taken for a repetition is held. -/
theorem Only.of_rejected (rejected : (ds.checkAndAdd now kind routeID eventID eventType ttl).2 = false) :
    allowed (dedupKey kind routeID eventID eventType) := by
  unfold DedupStore.checkAndAdd at rejected
  dsimp only at rejected
  split_ifs at rejected with zero held
  obtain ⟨slot, expiresAt, entry, _⟩ := (DedupShard.contains_iff ..).mp held
  exact only _ slot _ expiresAt entry

theorem Only.remove : (ds.remove kind routeID eventID eventType).Only allowed := by
  unfold DedupStore.remove
  dsimp only
  split_ifs
  · exact only
  · intro shard slot key expiresAt entry
    by_cases home : shard = shardOf (dedupKey kind routeID eventID eventType)
    · subst home
      simp only [update_self, delete_entries] at entry
      by_cases same : key = dedupKey kind routeID eventID eventType
      · subst same
        rw [update_self] at entry
        cases entry
      · rw [update_of_ne same] at entry
        exact only _ _ _ _ entry
    · simp only [update_of_ne home] at entry
      exact only _ _ _ _ entry

theorem Only.rotateAll : (ds.rotateAll now).Only allowed := by
  intro shard slot key expiresAt entry
  rcases rotate_entries (ds.shards shard) now slot with kept | ⟨emptied, _⟩
  · exact only _ _ _ _ ((congrArg (fun gen => DedupGen.entries gen key) kept).symm.trans entry)
  · cases (congrArg (fun gen => DedupGen.entries gen key) emptied).symm.trans entry

/-! ## How long a key is held -/

end

/-- From now on the store holds the key at the given times. -/
def Marks (ds : DedupStore) (now : ℤ) (key : DedupKey) (lasts : ℤ → Prop) : Prop :=
  ∃ set, Agree ds.tables set now ∧ ∀ time, set.Holds time key ↔ lasts time

variable {key : DedupKey} {lasts : ℤ → Prop} {later : ℤ}

theorem Marks.advance (marks : ds.Marks now key lasts) (order : now ≤ later) : ds.Marks later key lasts := by
  obtain ⟨set, agree, held⟩ := marks
  exact ⟨set, agree.advance order, held⟩

section

variable (marks : ds.Marks now (Session.dedupKey kind routeID eventID eventType) lasts)

include marks

theorem Marks.answer (nonzero : eventID ≠ 0) :
    (ds.checkAndAdd now kind routeID eventID eventType ttl).2 = false ↔ lasts now := by
  obtain ⟨set, agree, held⟩ := marks
  exact (agree_answer agree nonzero kind routeID eventType ttl).trans (held now)

/-- A key that is not held is added for the lifetime. -/
theorem Marks.add (free : ∀ time, ¬ lasts time) (nonzero : eventID ≠ 0)
    (fits : Fits (now, .checkAndAdd kind routeID eventID eventType ttl)) :
    (ds.checkAndAdd now kind routeID eventID eventType ttl).1.Marks now
      (dedupKey kind routeID eventID eventType) fun time => time < now + ttl := by
  obtain ⟨set, agree, held⟩ := marks
  refine ⟨_, agree_checkAndAdd agree fits, fun time => ?_⟩
  simp only [meaning, nonzero, ↓reduceIte]
  exact ExpiringSet.holds_apply_add_of_not_holds (mt (held now).mp (free now)) _ _

/-- A key that is held is not added again. -/
theorem Marks.add_held (lasting : lasts now)
    (fits : Fits (now, .checkAndAdd kind routeID eventID eventType ttl)) :
    (ds.checkAndAdd now kind routeID eventID eventType ttl).1.Marks now
      (dedupKey kind routeID eventID eventType) lasts := by
  obtain ⟨set, agree, held⟩ := marks
  refine ⟨_, agree_checkAndAdd agree fits, fun time => ?_⟩
  unfold meaning
  dsimp only
  split_ifs
  · exact held time
  · exact (ExpiringSet.holds_apply_add_of_holds ((held now).mpr lasting) _ _).trans (held time)

end

theorem Marks.add_other (marks : ds.Marks now key lasts) (other : dedupKey kind routeID eventID eventType ≠ key)
    (fits : Fits (now, .checkAndAdd kind routeID eventID eventType ttl)) :
    (ds.checkAndAdd now kind routeID eventID eventType ttl).1.Marks now key lasts := by
  obtain ⟨set, agree, held⟩ := marks
  refine ⟨_, agree_checkAndAdd agree fits, fun time => ?_⟩
  unfold meaning
  dsimp only
  split_ifs
  · exact held time
  · refine (set.holds_apply_other now time (fun _ same => other ?_) (by simp)).trans (held time)
    cases same
    rfl

theorem Marks.remove_other (marks : ds.Marks now key lasts)
    (other : dedupKey kind routeID eventID eventType ≠ key) :
    (ds.remove kind routeID eventID eventType).Marks now key lasts := by
  obtain ⟨set, agree, held⟩ := marks
  refine ⟨_, agree_remove agree kind routeID eventID eventType, fun time => ?_⟩
  unfold meaning
  dsimp only
  split_ifs
  · exact held time
  · refine (set.holds_apply_other now time (by simp) (fun same => other ?_)).trans (held time)
    cases same
    rfl

theorem Marks.rotateAll (marks : ds.Marks now key lasts) : (ds.rotateAll now).Marks now key lasts := by
  obtain ⟨set, agree, held⟩ := marks
  exact ⟨set, agree_rotateAll agree, held⟩

end DedupStore

end Cordis.Session
