import Cordis.Machine.ExpiringSet
import Mathlib.Data.Fin.Basic
import Mathlib.Algebra.Ring.Int.Defs
import Mathlib.Algebra.Ring.Nat
import Mathlib.Tactic.FinCases

/-! # The generational deduplication store

Each shard is a ring of four generation tables. Additions go to the head table; rotation opens the
next slot as a fresh head, and is skipped while the slot it would overwrite still has an entry that
has not run out. Until the ring has filled, the slots at and beyond `len` have never been used.

The structures carry what the code keeps true by construction: every entry of a generation is
bounded by its `maxExpiresAt`, the head lies in the used part of the ring, and unused slots are
empty. Times are the 64-bit nanosecond counts of the source, so the expiry of an addition is the
wrapped sum. A table that was never allocated reads as empty, as it does in the source.
-/

namespace Cordis.Session

abbrev dedupShardCount : ℕ := 256
abbrev dedupNumGens : ℕ := 4

def routeKindGuild : UInt8 := 1
def routeKindGuildMsg : UInt8 := 2
def routeKindUser : UInt8 := 3
def routeKindProfile : UInt8 := 4
def routeKindPresence : UInt8 := 5

/-- Signed 64-bit wrap-around. -/
def wrap64 (n : ℤ) : ℤ := n.bmod (2 ^ 64)

theorem wrap64_of_fits {n : ℤ} (lower : -2 ^ 63 ≤ n) (upper : n < 2 ^ 63) : wrap64 n = n := by
  unfold wrap64
  rw [Int.bmod_def]
  split <;> omega

structure DedupKey where
  routeKind : UInt8
  routeID : Int64
  eventNamespace : UInt64
  eventID : Int64
deriving DecidableEq, Repr

/-- FNV-1a over the bytes of the event type. -/
def hashEventType (eventType : String) : UInt64 :=
  eventType.toUTF8.data.toList.foldl (fun hash byte => (hash ^^^ byte.toUInt64) * 1099511628211)
    14695981039346656037

def dedupKey (kind : UInt8) (routeID eventID : Int64) (eventType : String) : DedupKey where
  routeKind := kind
  routeID := routeID
  eventNamespace := hashEventType eventType
  eventID := eventID

def shardOf (key : DedupKey) : Fin dedupShardCount :=
  Fin.ofNat dedupShardCount
    ((key.routeKind.toUInt64 ^^^ key.routeID.toUInt64 ^^^ key.eventNamespace ^^^ key.eventID.toUInt64) %
      256).toNat

structure DedupGen where
  entries : DedupKey → Option ℤ
  maxExpiresAt : ℤ
  bounded : ∀ key expiresAt, entries key = some expiresAt → expiresAt ≤ maxExpiresAt

namespace DedupGen

def empty : DedupGen where
  entries _ := none
  maxExpiresAt := 0
  bounded := by simp

def insert (gen : DedupGen) (key : DedupKey) (expiresAt : ℤ) : DedupGen where
  entries := Function.update gen.entries key (some expiresAt)
  maxExpiresAt := max gen.maxExpiresAt expiresAt
  bounded := by
    intro other found entry
    by_cases same : other = key
    · subst same
      rw [Function.update_self] at entry
      exact Option.some.inj entry ▸ le_max_right _ _
    · rw [Function.update_of_ne same] at entry
      exact (gen.bounded other found entry).trans (le_max_left _ _)

def delete (gen : DedupGen) (key : DedupKey) : DedupGen where
  entries := Function.update gen.entries key none
  maxExpiresAt := gen.maxExpiresAt
  bounded := by
    intro other found entry
    by_cases same : other = key
    · subst same
      rw [Function.update_self] at entry
      cases entry
    · rw [Function.update_of_ne same] at entry
      exact gen.bounded other found entry

end DedupGen

/-- A ring of generations: `head` is the current slot and `len` slots have been used. -/
structure DedupShard where
  gens : Fin dedupNumGens → DedupGen
  head : Fin dedupNumGens
  len : ℕ
  filling : len < dedupNumGens → head.val + 1 = len
  full : len ≤ dedupNumGens
  unused : ∀ slot : Fin dedupNumGens, len ≤ slot.val → ∀ key, (gens slot).entries key = none

namespace DedupShard

variable (shard : DedupShard) (key : DedupKey) (now : ℤ)

theorem head_lt_len : shard.head.val < shard.len := by
  have filling := shard.filling
  have full := shard.full
  have bound := shard.head.isLt
  omega

/-- The slot `i` places behind the head. -/
def slot (i : ℕ) : Fin dedupNumGens :=
  Fin.ofNat dedupNumGens ((shard.head.val + dedupNumGens - i) % dedupNumGens)

/-- The lookup loop of `checkAndAdd`, newest generation first. -/
def contains : Bool :=
  (List.range shard.len).any fun i =>
    match (shard.gens (shard.slot i)).entries key with
    | some expiresAt => decide (now < expiresAt)
    | none => false

/-- Every used slot is some number of places behind the head. -/
theorem exists_slot {slot : Fin dedupNumGens} (used : slot.val < shard.len) :
    ∃ i < shard.len, shard.slot i = slot := by
  have filling := shard.filling
  have full := shard.full
  have head := shard.head.isLt
  have bound := slot.isLt
  have head_lt := shard.head_lt_len
  simp only [dedupNumGens] at *
  refine ⟨(shard.head.val + 4 - slot.val) % 4, by omega, ?_⟩
  apply Fin.ext
  simp only [DedupShard.slot, dedupNumGens, Fin.val_ofNat]
  omega

/-- The loop sees exactly the entries of the whole ring. -/
theorem contains_iff : shard.contains key now = true ↔ Live (fun slot => (shard.gens slot).entries) now key := by
  simp only [contains, List.any_eq_true, List.mem_range]
  constructor
  · rintro ⟨i, _, found⟩
    split at found
    · next expiresAt entry => exact ⟨shard.slot i, expiresAt, entry, of_decide_eq_true found⟩
    · cases found
  · rintro ⟨slot, expiresAt, entry, alive⟩
    have used : slot.val < shard.len := by
      by_contra idle
      exact Option.some_ne_none _ (entry.symm.trans (shard.unused slot (Nat.le_of_not_lt idle) key))
    obtain ⟨i, bound, rfl⟩ := shard.exists_slot used
    refine ⟨i, bound, ?_⟩
    dsimp only at entry
    simp [entry, alive]

/-- Record an addition in the head generation. -/
def insert (expiresAt : ℤ) : DedupShard where
  gens := Function.update shard.gens shard.head ((shard.gens shard.head).insert key expiresAt)
  head := shard.head
  len := shard.len
  filling := shard.filling
  full := shard.full
  unused := by
    intro slot idle other
    have away : slot ≠ shard.head := by
      rintro rfl
      exact absurd shard.head_lt_len (Nat.not_lt_of_le idle)
    rw [Function.update_of_ne away]
    exact shard.unused slot idle other

/-- The deletion loop of `remove` visits the same slots as the lookup. -/
def delete : DedupShard where
  gens slot :=
    if ∃ i < shard.len, shard.slot i = slot then (shard.gens slot).delete key else shard.gens slot
  head := shard.head
  len := shard.len
  filling := shard.filling
  full := shard.full
  unused := by
    intro slot idle other
    have old := shard.unused slot idle other
    split
    · by_cases same : other = key
      · subst same
        simp [DedupGen.delete]
      · simpa only [DedupGen.delete, Function.update_of_ne same] using old
    · exact old

/-- Open the next slot as a fresh head unless it still holds an entry that has not run out. -/
def rotate : DedupShard :=
  let next : Fin dedupNumGens := Fin.ofNat dedupNumGens ((shard.head.val + 1) % dedupNumGens)
  if shard.len = dedupNumGens ∧ (shard.gens next).maxExpiresAt > now then shard
  else
    { gens := Function.update shard.gens next .empty
      head := next
      len := if shard.len < dedupNumGens then shard.len + 1 else shard.len
      filling := by
        have filling := shard.filling
        have full := shard.full
        simp only [next, dedupNumGens, Fin.val_ofNat] at *
        split <;> omega
      full := by
        have full := shard.full
        split <;> omega
      unused := by
        intro slot idle key
        have old : shard.len ≤ slot.val := by split at idle <;> omega
        by_cases same : slot = next
        · subst same
          rw [Function.update_self]
          rfl
        · rw [Function.update_of_ne same]
          exact shard.unused slot old key }

def fresh : DedupShard where
  gens _ := .empty
  head := 0
  len := 1
  filling := fun _ => rfl
  full := by decide
  unused := fun _ _ _ => rfl

end DedupShard

structure DedupStore where
  shards : Fin dedupShardCount → DedupShard

def newDedupStore : DedupStore := ⟨fun _ => .fresh⟩

namespace DedupStore

def checkAndAdd (ds : DedupStore) (now : ℤ) (kind : UInt8) (routeID eventID : Int64)
    (eventType : String) (ttl : ℤ) : DedupStore × Bool :=
  if eventID = 0 then (ds, true)
  else
    let key := dedupKey kind routeID eventID eventType
    let shard := ds.shards (shardOf key)
    if shard.contains key now then (ds, false)
    else (⟨Function.update ds.shards (shardOf key) (shard.insert key (wrap64 (now + ttl)))⟩, true)

def remove (ds : DedupStore) (kind : UInt8) (routeID eventID : Int64) (eventType : String) :
    DedupStore :=
  if eventID = 0 then ds
  else
    let key := dedupKey kind routeID eventID eventType
    ⟨Function.update ds.shards (shardOf key) ((ds.shards (shardOf key)).delete key)⟩

def rotateAll (ds : DedupStore) (now : ℤ) : DedupStore := ⟨fun i => (ds.shards i).rotate now⟩

end DedupStore

end Cordis.Session
