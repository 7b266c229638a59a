import Cordis.Session.Dedup

/-! # Sequence watermarks

For each route and channel the store keeps the highest stream sequence it has let through, for an
hour after the last one. A sequence at or below the mark is rejected while the mark lasts. Expired
marks are ignored and swept by `cleanup`. Events without a positive sequence always pass.
-/

namespace Cordis.Session

open Function Option

abbrev watermarkShardCount : ℕ := 256

/-- An hour, in nanoseconds. -/
def watermarkTTL : ℤ := 3600000000000

structure WatermarkKey where
  routeKind : UInt8
  routeID : Int64
  channelID : Int64
deriving DecidableEq, Repr

structure WatermarkEntry where
  sequence : ℤ
  expiresAt : ℤ
deriving DecidableEq, Repr

instance : NeZero watermarkShardCount := ⟨by decide⟩

def watermarkShardOf (key : WatermarkKey) : Fin watermarkShardCount :=
  Fin.ofNat watermarkShardCount
    ((key.routeKind.toUInt64 ^^^ key.routeID.toUInt64 ^^^ key.channelID.toUInt64) % 256).toNat

structure WatermarkStore where
  shards : Fin watermarkShardCount → WatermarkKey → Option WatermarkEntry

def newWatermarkStore : WatermarkStore := ⟨fun _ _ => none⟩

namespace WatermarkStore

variable (store : WatermarkStore)

/-- The entry of a key, in the shard the key belongs to. -/
def entry (key : WatermarkKey) : Option WatermarkEntry :=
  store.shards (watermarkShardOf key) key

/-- The mark that still counts. -/
def mark (key : WatermarkKey) (now : ℤ) : Option ℤ :=
  ((store.entry key).filter fun current => decide (now < current.expiresAt)).map WatermarkEntry.sequence

def accept (now : ℤ) (key : WatermarkKey) (sequence : ℤ) : WatermarkStore × Bool :=
  if sequence ≤ 0 then (store, true)
  else if ∃ current ∈ store.entry key, now < current.expiresAt ∧ sequence ≤ current.sequence then
    (store, false)
  else
    (⟨Function.update store.shards (watermarkShardOf key)
      (Function.update (store.shards (watermarkShardOf key)) key
        (some ⟨sequence, wrap64 (now + watermarkTTL)⟩))⟩, true)

def cleanup (now : ℤ) : WatermarkStore where
  shards shard key := (store.shards shard key).filter fun entry => decide (now < entry.expiresAt)

variable {store : WatermarkStore} {now : ℤ} {key other : WatermarkKey} {sequence : ℤ}

/-- A positive sequence is rejected exactly by a mark that lasts and is not below it. -/
theorem accept_eq_false (positive : 0 < sequence) :
    (store.accept now key sequence).2 = false ↔ ∃ mark ∈ store.mark key now, sequence ≤ mark := by
  unfold accept mark
  rw [if_neg (not_le.mpr positive)]
  cases store.entry key with
  | none => simp
  | some current =>
    by_cases lasting : now < current.expiresAt
    · by_cases below : sequence ≤ current.sequence <;> simp [filter_some, lasting, below]
    · simp [filter_some, lasting]

theorem accept_rejected (rejected : (store.accept now key sequence).2 = false) :
    (store.accept now key sequence).1 = store := by
  unfold accept at rejected ⊢
  split_ifs at rejected ⊢
  rfl

theorem accept_of_nonpositive (legacy : sequence ≤ 0) : store.accept now key sequence = (store, true) :=
  if_pos legacy

/-- An accepted sequence is above a mark that lasts. -/
theorem lt_of_accepted (positive : 0 < sequence) (accepted : (store.accept now key sequence).2 = true)
    {current : WatermarkEntry} (held : current ∈ store.entry key) (lasting : now < current.expiresAt) :
    current.sequence < sequence := by
  by_contra above
  have marked : current.sequence ∈ store.mark key now :=
    map_eq_some_iff.mpr ⟨current, filter_eq_some_iff.mpr ⟨held, decide_eq_true lasting⟩, rfl⟩
  have rejected := (accept_eq_false positive).mpr ⟨_, marked, not_lt.mp above⟩
  cases accepted.symm.trans rejected

/-- An accepted sequence becomes the mark of its key. -/
theorem entry_accept (positive : 0 < sequence) (accepted : (store.accept now key sequence).2 = true) :
    (store.accept now key sequence).1.entry key = some ⟨sequence, wrap64 (now + watermarkTTL)⟩ := by
  unfold accept at accepted ⊢
  rw [if_neg (not_le.mpr positive)] at accepted ⊢
  split_ifs at accepted ⊢ with held
  simp [entry]

theorem entry_accept_of_ne (distinct : other ≠ key) :
    (store.accept now key sequence).1.entry other = store.entry other := by
  unfold accept
  split_ifs
  · rfl
  · rfl
  · unfold entry
    by_cases same : watermarkShardOf other = watermarkShardOf key
    · simp [same, update_of_ne distinct]
    · simp only [update_of_ne same]

end WatermarkStore

end Cordis.Session
