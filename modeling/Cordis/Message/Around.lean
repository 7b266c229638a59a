import Mathlib.Data.List.Sort

/-! # Messages around an anchor

A channel is read newest first. Around an anchor two queries are made, one for each side and each for as
many messages as are asked for, and a window is cut from what they give. The window is one of the whole
channel: half of it is newer than the anchor, and it moves only when one side is too short.
-/

namespace Cordis.Messaging

open List

/-- A row of `messages`, with the columns that its lists go by. -/
structure Message where
  id : ℤ
  channelID : ℤ
  deletedAt : ℤ := 0
deriving DecidableEq, Repr

section Queries

variable (messages : List Message) (channelID around : ℤ) (limit : ℕ)

/-- `ORDER BY id DESC` -/
def newestFirst (messages : List Message) : List Message := messages.insertionSort fun a b => b.id ≤ a.id

/-- `ORDER BY id ASC` -/
def oldestFirst (messages : List Message) : List Message := messages.insertionSort fun a b => a.id ≤ b.id

def listMessagesAroundOlder : List Message :=
  (newestFirst (messages.filter fun message =>
    message.channelID = channelID ∧ message.deletedAt = 0 ∧ message.id ≤ around)).take limit

def listMessagesAroundNewer : List Message :=
  (oldestFirst (messages.filter fun message =>
    message.channelID = channelID ∧ message.deletedAt = 0 ∧ around < message.id)).take limit

/-- What is kept of the messages newer than the anchor and the others, both newest first. -/
def aroundWindow {α : Type} (newer older : List α) (limit : ℕ) : List α :=
  let all := newer ++ older
  if all.length ≤ limit then all
  else
    let start := newer.length - limit / 2
    if all.length < start + limit then all.drop (all.length - limit) else (all.take (start + limit)).drop start

def listMessagesAround : List Message :=
  aroundWindow (listMessagesAroundNewer messages channelID around limit).reverse
    (listMessagesAroundOlder messages channelID around limit) limit

/-- The live messages of the channel. -/
def liveMessages : List Message :=
  newestFirst (messages.filter fun message => message.channelID = channelID ∧ message.deletedAt = 0)

/-- Those newer than the anchor. -/
def newerMessages : List Message := (liveMessages messages channelID).filter fun message => around < message.id

def olderMessages : List Message := (liveMessages messages channelID).filter fun message => message.id ≤ around

end Queries

/-- How many of the window are newer than the anchor: half, or what a side that is too short leaves. -/
def newerShare (newer older limit : ℕ) : ℕ := min newer (max (limit / 2) (limit - older))

/-- The window of the truncated sides is a window of the whole. -/
theorem aroundWindow_truncated {α : Type} (newer older : List α) (limit : ℕ) :
    aroundWindow (newer.drop (newer.length - limit)) (older.take limit) limit =
      ((newer ++ older).drop (newer.length - newerShare newer.length older.length limit)).take limit := by
  generalize whole : (newer ++ older).drop (newer.length - limit) = rest
  generalize sized : min newer.length limit = kept
  have all : newer.drop (newer.length - limit) ++ older.take limit = rest.take (kept + limit) := by
    have length : kept = (newer.drop (newer.length - limit)).length := by
      rw [length_drop]
      omega
    rw [← whole, drop_append_of_le_length (by omega), length, take_length_add_append]
  have total : rest.length = kept + older.length := by
    rw [← whole, length_drop, length_append]
    omega
  have starts (skipped : ℕ) (place : newer.length - newerShare newer.length older.length limit =
      newer.length - limit + skipped) :
      ((newer ++ older).drop (newer.length - newerShare newer.length older.length limit)).take limit =
        (rest.drop skipped).take limit := by
    rw [place, ← drop_drop, whole]
  unfold newerShare at starts ⊢
  simp only [aroundWindow, all, length_take, length_drop, total]
  split_ifs with few short
  · rw [starts 0 (by omega), drop_zero, take_eq_take_iff, total]
    omega
  · have skips : min (kept + limit) (kept + older.length) - limit = kept + older.length - limit := by omega
    rw [starts (kept + older.length - limit) (by omega), skips, drop_take, take_eq_take_iff, length_drop,
      total]
    omega
  · have skips : newer.length - (newer.length - limit) - limit / 2 = kept - limit / 2 := by omega
    rw [starts (kept - limit / 2) (by omega), skips, take_take, drop_take, take_eq_take_iff,
      length_drop, total]
    omega

section Order

variable {messages : List Message} {channelID around : ℤ} {message : Message}

@[simp] theorem mem_newerMessages :
    message ∈ newerMessages messages channelID around ↔ message ∈ liveMessages messages channelID ∧ around < message.id := by
  simp [newerMessages]

@[simp] theorem mem_olderMessages :
    message ∈ olderMessages messages channelID around ↔ message ∈ liveMessages messages channelID ∧ message.id ≤ around := by
  simp [olderMessages]

theorem sorted_insertionSort {Key : Type} [LinearOrder Key] (key : Message → Key) (unique : (messages.map key).Nodup) :
    (messages.insertionSort fun a b => key a ≤ key b).Pairwise fun a b => key a < key b := by
  have total : Std.Total fun a b => key a ≤ key b := ⟨fun a b => le_total (key a) (key b)⟩
  have trans : IsTrans Message fun a b => key a ≤ key b := ⟨fun _ _ _ => le_trans⟩
  have sorted := pairwise_insertionSort (fun a b => key a ≤ key b) messages
  refine sorted.imp₂ (fun a b below distinct => lt_of_le_of_ne below distinct) ?_
  exact pairwise_map.mp (((perm_insertionSort _ messages).map key).nodup_iff.mpr unique)

theorem descending_newestFirst (unique : (messages.map Message.id).Nodup) :
    (newestFirst messages).Pairwise fun a b => b.id < a.id :=
  sorted_insertionSort (fun message => OrderDual.toDual message.id) unique

theorem descending_oldestFirst (unique : (messages.map Message.id).Nodup) :
    (oldestFirst messages).reverse.Pairwise fun a b => b.id < a.id :=
  pairwise_reverse.mpr (sorted_insertionSort Message.id unique)

/-- There is one list of some messages that has the newest first. -/
theorem eq_of_descending {first second : List Message} (inFirst : first.Pairwise fun a b => b.id < a.id)
    (inSecond : second.Pairwise fun a b => b.id < a.id) (same : ∀ message, message ∈ first ↔ message ∈ second) :
    first = second := by
  have irrefl : Std.Irrefl fun a b : Message => b.id < a.id := ⟨fun a => lt_irrefl a.id⟩
  have asymm : Std.Antisymm fun a b : Message => b.id < a.id := ⟨fun _ _ first second => (lt_asymm first second).elim⟩
  exact inFirst.eq_of_mem_iff inSecond same

variable (unique : (messages.map Message.id).Nodup) (channelID around : ℤ) (limit : ℕ)

include unique

theorem descending_liveMessages : (liveMessages messages channelID).Pairwise fun a b => b.id < a.id :=
  descending_newestFirst (unique.sublist (filter_sublist.map _))

/-- The anchor parts the channel. -/
theorem liveMessages_split : liveMessages messages channelID =
    newerMessages messages channelID around ++ olderMessages messages channelID around := by
  have descending := descending_liveMessages unique channelID
  refine eq_of_descending descending (pairwise_append.mpr ⟨descending.filter _, descending.filter _, ?_⟩) ?_
  · intro newer isNewer older isOlder
    rw [mem_newerMessages] at isNewer
    rw [mem_olderMessages] at isOlder
    omega
  · intro message
    simp [mem_newerMessages, mem_olderMessages, ← and_or_left, lt_or_ge]

theorem listMessagesAroundOlder_eq : listMessagesAroundOlder messages channelID around limit =
    (olderMessages messages channelID around).take limit := by
  unfold listMessagesAroundOlder
  congr 1
  refine eq_of_descending (descending_newestFirst (unique.sublist (filter_sublist.map _)))
    ((descending_liveMessages unique channelID).filter _) fun message => ?_
  simp [liveMessages, newestFirst, and_assoc]

theorem reverse_listMessagesAroundNewer : (listMessagesAroundNewer messages channelID around limit).reverse =
    (newerMessages messages channelID around).drop ((newerMessages messages channelID around).length - limit) := by
  have newer : (oldestFirst (messages.filter fun message => message.channelID = channelID ∧ message.deletedAt = 0 ∧
      around < message.id)).reverse = newerMessages messages channelID around := by
    refine eq_of_descending (descending_oldestFirst (unique.sublist (filter_sublist.map _)))
      ((descending_liveMessages unique channelID).filter _) fun message => ?_
    simp [liveMessages, newestFirst, oldestFirst, and_assoc]
  rw [listMessagesAroundNewer, reverse_take, newer, ← newer, length_reverse]

/-- The last of the newer messages and the first of the others. -/
theorem listMessagesAround_eq :
    let newer := newerMessages messages channelID around
    let older := olderMessages messages channelID around
    let share := newerShare newer.length older.length limit
    listMessagesAround messages channelID around limit = newer.drop (newer.length - share) ++ older.take (limit - share) := by
  intro newer older share
  have bounded : share ≤ newer.length ∧ share ≤ limit := by
    simp only [share, newerShare]
    omega
  rw [listMessagesAround, reverse_listMessagesAroundNewer unique, listMessagesAroundOlder_eq unique,
    aroundWindow_truncated, drop_append_of_le_length (Nat.sub_le ..), take_append, take_of_length_le]
  · rw [length_drop, Nat.sub_sub_self bounded.1]
  · rw [length_drop, Nat.sub_sub_self bounded.1]
    exact bounded.2

end Order

/-- However many messages are on either side of the anchor, the answer is a block of the channel, newest first,
as long as the limit allows. It holds the newest message that is not newer than the anchor. Half of it is
newer than the anchor, or as much more or less as it takes to fill the block when a side is too short. -/
theorem listMessagesAround_block {messages : List Message} (unique : (messages.map Message.id).Nodup)
    (channelID around : ℤ) {limit : ℕ} (positive : 1 ≤ limit) :
    let live := liveMessages messages channelID
    let newer := (newerMessages messages channelID around).length
    let older := (olderMessages messages channelID around).length
    let block := listMessagesAround messages channelID around limit
    block <:+: live ∧ block.Pairwise (fun a b => b.id < a.id) ∧ block.length = min limit live.length ∧
      (∀ message ∈ live, message.id ≤ around → (∀ other ∈ live, other.id ≤ around → other.id ≤ message.id) →
        message ∈ block) ∧
      (limit - limit / 2 ≤ older → block.countP (fun message => around < message.id) ≤ limit / 2) ∧
      block.countP (fun message => around < message.id) = newerShare newer older limit := by
  intro live newer older block
  have split : live = _ := liveMessages_split unique channelID around
  have parts : block = _ := listMessagesAround_eq unique channelID around limit
  have inside : block <:+: live := by
    rw [parts, split]
    refine ⟨(newerMessages messages channelID around).take (newer - newerShare newer older limit),
      (olderMessages messages channelID around).drop (limit - newerShare newer older limit), ?_⟩
    rw [← List.append_assoc, List.take_append_drop, List.append_assoc, List.take_append_drop]
  have share : block.countP (fun message => around < message.id) = newerShare newer older limit := by
    rw [parts, List.countP_append, List.countP_eq_length.mpr, List.countP_eq_zero.mpr, List.length_drop]
    · simp only [newerShare]
      omega
    · intro message member
      simpa using (mem_olderMessages.mp (List.mem_of_mem_take member)).2
    · intro message member
      simpa using (mem_newerMessages.mp (List.mem_of_mem_drop member)).2
  refine ⟨inside, (descending_liveMessages unique channelID).sublist inside.sublist, ?_, ?_, ?_, share⟩
  · rw [parts, split, List.length_append, List.length_append, List.length_drop, List.length_take, newerShare]
    omega
  · intro message member notNewer newest
    have descending : (olderMessages messages channelID around).Pairwise fun a b => b.id < a.id :=
      (descending_liveMessages unique channelID).filter _
    have listed : message ∈ olderMessages messages channelID around := mem_olderMessages.mpr ⟨member, notNewer⟩
    have room : 0 < limit - newerShare newer older limit := by
      have some : 0 < older := List.length_pos_of_mem listed
      rw [newerShare]
      omega
    rw [parts]
    refine List.mem_append_right _ ?_
    change message ∈ (olderMessages messages channelID around).take (limit - newerShare newer older limit)
    generalize limit - newerShare newer older limit = count at room ⊢
    cases cut : olderMessages messages channelID around with
    | nil => exact absurd listed (by simp [cut])
    | cons first rest =>
      have notNewerToo := mem_olderMessages.mp (cut ▸ List.mem_cons_self : first ∈ olderMessages messages channelID around)
      rw [cut] at listed descending
      rcases List.mem_cons.mp listed with rfl | later
      · rw [List.take_cons room]
        exact List.mem_cons_self
      · have lower := (List.pairwise_cons.mp descending).1 message later
        have upper := newest first notNewerToo.1 notNewerToo.2
        omega
  · rw [share, newerShare]
    omega

/-- Three messages around one that is not there: half of three is one. -/
theorem listMessagesAround_three : listMessagesAround [⟨1, 7, 0⟩, ⟨2, 7, 0⟩, ⟨4, 7, 0⟩, ⟨5, 7, 0⟩, ⟨6, 8, 0⟩] 7 3 3 =
      [⟨4, 7, 0⟩, ⟨2, 7, 0⟩, ⟨1, 7, 0⟩] ∧
    listMessagesAround [⟨1, 7, 0⟩, ⟨2, 7, 0⟩, ⟨4, 7, 0⟩, ⟨5, 7, 0⟩, ⟨6, 8, 0⟩] 7 3 3 <:+:
      liveMessages [⟨1, 7, 0⟩, ⟨2, 7, 0⟩, ⟨4, 7, 0⟩, ⟨5, 7, 0⟩, ⟨6, 8, 0⟩] 7 :=
  ⟨by decide, (listMessagesAround_block (by decide) 7 3 (by decide)).1⟩

end Cordis.Messaging
