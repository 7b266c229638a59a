import Cordis.Guild.Operations
import Mathlib.Data.List.ReduceOption

/-! # The layout of a guild's channels

The live channels of a guild stand in one order: first the channels without a category, then the
categories and the channels in them. Creation inserts a channel and shifts the ones behind it, a move to
another parent and a reordering number the channels anew, and the deletion of a category leaves its
channels without a parent where they are. All but the last keep the order. Channels of a category that
goes may stand behind other categories, and do so afterwards as channels without a category.
-/

namespace Cordis.Guild

open Channel GuildTables List

/-- The live channels of a guild. -/
def GuildTables.layout (tables : GuildTables) (guildID : ℤ) : List Channel :=
  tables.channels.filter fun channel => channel.guildID = guildID ∧ channel.deleted = false

def Channel.Uncategorized (channel : Channel) : Bool := isUncategorizedChannel channel.type channel.parentID

/-- Positions are distinct, parents are categories of the layout, and the channels without a category
come first. -/
structure LayoutOrdered (channels : List Channel) : Prop where
  distinct : ∀ channel ∈ channels, ∀ other ∈ channels, channel.position = other.position → channel = other
  parents : ∀ channel ∈ channels, channel.parentID ≠ 0 →
    ∃ parent ∈ channels, parent.id = channel.parentID ∧ parent.type = .category
  first : ∀ channel ∈ channels, ∀ other ∈ channels, channel.Uncategorized = true → other.Uncategorized = false →
    channel.position < other.position

theorem LayoutOrdered.of_mem {channels others : List Channel} (layout : LayoutOrdered channels)
    (same : ∀ channel, channel ∈ others ↔ channel ∈ channels) : LayoutOrdered others := by
  constructor
  · simpa only [same] using layout.distinct
  · simpa only [same] using layout.parents
  · simpa only [same] using layout.first

section Lists

variable {channels ordered : List Channel} {channel : Channel} {parentOf : Channel → ℤ} {index : ℕ}

/-- The updates for an order put every channel at its index, with its parent. -/
theorem place_orderUpdates (nodup : (ordered.map Channel.id).Nodup) (here : ordered[index]? = some channel) :
    place (orderUpdates parentOf ordered) channel =
      { channel with position := index, parentID := parentOf channel } := by
  have member {update : PositionUpdate} : update ∈ orderUpdates parentOf ordered ↔
      ∃ other position, ordered[position]? = some other ∧ ¬ (other.position = position ∧ other.parentID = parentOf other) ∧
        update = ⟨other.id, position, parentOf other⟩ := by
    simp only [orderUpdates, mem_filterMap, Prod.exists, mk_mem_zipIdx_iff_getElem?]
    refine exists_congr fun other => exists_congr fun position => and_congr_right fun _ => ?_
    split_ifs with stays
    · simp [stays]
    · simp only [Option.some.injEq, stays, not_false_eq_true, true_and]
      exact eq_comm
  unfold place placement
  cases found : (orderUpdates parentOf ordered).find? fun update => update.channelID = channel.id with
  | none =>
    -- No update is made for a channel that is in its place already.
    have stays : channel.position = index ∧ channel.parentID = parentOf channel := by
      by_contra moves
      have missing := find?_eq_none.mp found _ (member.mpr ⟨channel, index, here, moves, rfl⟩)
      simp at missing
    simp [← stays.1, ← stays.2]
  | some update =>
    have same : update.channelID = channel.id := by simpa using find?_some found
    obtain ⟨other, position, there, _, rfl⟩ := member.mp (mem_of_find?_eq_some found)
    obtain ⟨bound, _⟩ := List.getElem?_eq_some_iff.mp there
    have ids : (ordered.map Channel.id)[position]? = (ordered.map Channel.id)[index]? := by
      simpa [here, there] using same
    obtain rfl := (getElem?_inj (by simpa using bound) nodup).mp ids
    cases there.symm.trans here
    rfl

/-- The channels stand at their indexes, with the parents they are to have, and there is an update for each that
stood elsewhere or had another parent. -/
structure Renumbers (parentOf : Channel → ℤ) (ordered : List Channel) (updates : List GuildTables.PositionUpdate) :
    Prop where
  positions : (ordered.map fun channel => (GuildTables.place updates channel).position) = List.range ordered.length
  parents : ∀ channel ∈ ordered, (GuildTables.place updates channel).parentID = parentOf channel
  reported : updates.map (·.channelID) =
    (ordered.filter fun channel => GuildTables.place updates channel ≠ channel).map Channel.id

theorem renumbers_orderUpdates (nodup : (ordered.map Channel.id).Nodup) :
    Renumbers parentOf ordered (orderUpdates parentOf ordered) := by
  constructor
  · apply ext_getElem
    · rw [length_map, length_range]
    · intro index bound _
      rw [length_map] at bound
      rw [getElem_map, getElem_range, place_orderUpdates nodup (getElem?_eq_getElem bound)]
  · intro channel member
    obtain ⟨index, here⟩ := mem_iff_getElem?.mp member
    rw [place_orderUpdates nodup here]
  · -- an update is made at an index just when the channel there is not as it is placed
    have changed (channel : Channel) (index : ℕ) (member : (channel, index) ∈ ordered.zipIdx) :
        place (orderUpdates parentOf ordered) channel = channel ↔
          channel.position = index ∧ channel.parentID = parentOf channel := by
      rw [place_orderUpdates nodup (mk_mem_zipIdx_iff_getElem?.mp member)]
      cases channel
      simp [eq_comm]
    have indexed (select : Channel → Option ℤ) :
        ordered.filterMap select = ordered.zipIdx.filterMap (select ∘ Prod.fst) := by
      rw [← filterMap_map, zipIdx_map_fst]
    rw [← filterMap_eq_filter, map_filterMap, indexed]
    nth_rewrite 1 [orderUpdates]
    rw [map_filterMap]
    refine filterMap_congr fun (channel, index) member => ?_
    by_cases stays : channel.position = index ∧ channel.parentID = parentOf channel
    · simp [stays, (changed channel index member).mpr stays]
    · simp [stays, mt (changed channel index member).mp stays]

/-- The channels are grouped: none without a category stands behind one that has one or is one. -/
def Grouped (parentOf : Channel → ℤ) (ordered : List Channel) : Prop :=
  ordered.Pairwise fun channel other =>
    isUncategorizedChannel other.type (parentOf other) = true → isUncategorizedChannel channel.type (parentOf channel) = true

theorem Grouped.of_le (grouped : Grouped parentOf ordered) {index later : ℕ} (after : index ≤ later) {one other : Channel}
    (here : ordered[index]? = some one) (there : ordered[later]? = some other)
    (without : isUncategorizedChannel other.type (parentOf other) = true) :
    isUncategorizedChannel one.type (parentOf one) = true := by
  rcases Nat.lt_or_eq_of_le after with less | same
  · obtain ⟨bound, isHere⟩ := List.getElem?_eq_some_iff.mp here
    obtain ⟨boundToo, isThere⟩ := List.getElem?_eq_some_iff.mp there
    have together := pairwise_iff_getElem.mp grouped index later bound boundToo less
    rw [isHere, isThere] at together
    exact together without
  · subst same
    cases here.symm.trans there
    exact without

theorem Grouped.place (grouped : Grouped parentOf ordered) (nodup : (ordered.map Channel.id).Nodup) :
    Grouped parentID (ordered.map (place (orderUpdates parentOf ordered))) := by
  refine pairwise_map.mpr (Pairwise.imp_of_mem (fun {one other} isOne isOther together => ?_) grouped)
  obtain ⟨_, here⟩ := mem_iff_getElem?.mp isOne
  obtain ⟨_, there⟩ := mem_iff_getElem?.mp isOther
  rw [place_orderUpdates nodup here, place_orderUpdates nodup there]
  exact together

/-- A grouped order gives an ordered layout. -/
theorem ordered_orderUpdates (perm : ∀ channel, channel ∈ ordered ↔ channel ∈ channels)
    (nodup : (ordered.map Channel.id).Nodup) (grouped : Grouped parentOf ordered)
    (parents : ∀ channel ∈ ordered, parentOf channel ≠ 0 →
      ∃ parent ∈ ordered, parent.id = parentOf channel ∧ parent.type = .category) :
    LayoutOrdered (channels.map (place (orderUpdates parentOf ordered))) := by
  have placed (channel : Channel) (member : channel ∈ channels) : ∃ index, ordered[index]? = some channel ∧
      place (orderUpdates parentOf ordered) channel =
        { channel with position := index, parentID := parentOf channel } := by
    obtain ⟨index, here⟩ := mem_iff_getElem?.mp ((perm channel).mpr member)
    exact ⟨index, here, place_orderUpdates nodup here⟩
  constructor
  · intro one isOne other isOther same
    obtain ⟨channel, member, rfl⟩ := mem_map.mp isOne
    obtain ⟨channelToo, memberToo, rfl⟩ := mem_map.mp isOther
    obtain ⟨index, here, place⟩ := placed channel member
    obtain ⟨indexToo, there, placeToo⟩ := placed channelToo memberToo
    rw [place, placeToo] at same
    subst same
    cases here.symm.trans there
    rfl
  · intro one isOne child
    obtain ⟨channel, member, rfl⟩ := mem_map.mp isOne
    obtain ⟨index, here, place⟩ := placed channel member
    rw [place] at child ⊢
    obtain ⟨parent, isParent, id, category⟩ := parents channel ((perm channel).mpr member) child
    obtain ⟨indexToo, there, placeToo⟩ := placed parent ((perm parent).mp isParent)
    refine ⟨_, mem_map_of_mem ((perm parent).mp isParent), ?_, ?_⟩
    · rw [placeToo]
      exact id
    · rw [placeToo]
      exact category
  · intro one isOne other isOther before behind
    obtain ⟨channel, member, rfl⟩ := mem_map.mp isOne
    obtain ⟨channelToo, memberToo, rfl⟩ := mem_map.mp isOther
    obtain ⟨index, here, place⟩ := placed channel member
    obtain ⟨indexToo, there, placeToo⟩ := placed channelToo memberToo
    rw [place] at before
    rw [placeToo] at behind
    rw [place, placeToo]
    change isUncategorizedChannel channelToo.type (parentOf channelToo) = false at behind
    by_contra late
    rw [grouped.of_le (Nat.le_of_not_lt late) there here before] at behind
    cases behind

variable (parentOf channels)

theorem grouped_uncategorizedFirst : Grouped parentOf (uncategorizedFirst parentOf channels) := by
  refine pairwise_append.mpr ⟨?_, ?_, ?_⟩
  · refine Pairwise.imp_of_mem (R := fun _ _ => True) (fun isOne _ _ _ => (mem_filter.mp isOne).2) ?_
    exact pairwise_of_forall fun _ _ => trivial
  · refine Pairwise.imp_of_mem (R := fun _ _ => True) (fun _ isOther _ behind => ?_)
      (pairwise_of_forall fun _ _ => trivial)
    have not := (mem_filter.mp isOther).2
    rw [behind] at not
    cases not
  · exact fun channel isOne other _ _ => (mem_filter.mp isOne).2

theorem perm_uncategorizedFirst : (uncategorizedFirst parentOf channels).Perm channels :=
  filter_append_perm ..

variable {parentOf channels}

section Reorder

variable {positions : List (ℤ × ℕ)}

/-- The requested channels are put into free places. -/
theorem placeRequested_eq_ok {places filled : List (Option Channel)}
    (placed : placeRequested channels positions places = .ok filled) :
    filled.reduceOption.Perm (positions.filterMap (fun item => channels.find? fun channel => channel.id = item.1) ++
        places.reduceOption) ∧
      filled.count none + positions.length = places.count none ∧
      ∀ item ∈ positions, ∃ channel ∈ channels, channel.id = item.1 := by
  induction positions generalizing places with
  | nil =>
    cases placed
    simp
  | cons item positions ih =>
    obtain ⟨_, _, placed⟩ := Go.bind_eq_ok.mp placed
    obtain ⟨channel, loaded, placed⟩ := Go.bind_eq_ok.mp placed
    obtain ⟨_, free, placed⟩ := Go.bind_eq_ok.mp placed
    have loaded : (channels.find? fun channel => channel.id = item.1) = some channel := found_eq_ok.mp loaded
    obtain ⟨bound, isFree⟩ := List.getElem?_eq_some_iff.mp (Go.require_eq_ok.mp free)
    obtain ⟨perm, counted, found⟩ := ih placed
    have split : places = places.take item.2 ++ none :: places.drop (item.2 + 1) := by
      rw [← isFree, getElem_cons_drop, take_append_drop]
    have after : places.set item.2 (some channel) = places.take item.2 ++ some channel :: places.drop (item.2 + 1) :=
      set_eq_take_append_cons_drop.trans (if_pos bound)
    refine ⟨?_, ?_, ?_⟩
    · rw [after, reduceOption_append, reduceOption_cons_of_some] at perm
      rw [filterMap_cons, loaded, split, reduceOption_append, reduceOption_cons_of_none]
      refine perm.trans ?_
      rw [cons_append, ← append_assoc, ← append_assoc]
      exact perm_middle
    · rw [after, count_append, count_cons] at counted
      rw [split, count_append, count_cons]
      simp only [length_cons, BEq.rfl, ↓reduceIte, Option.some_beq_none, Bool.false_eq_true] at counted ⊢
      omega
    · rintro other (_ | ⟨_, later⟩)
      · exact ⟨channel, mem_of_find?_eq_some loaded, by simpa using find?_some loaded⟩
      · exact found other later

/-- There are as many free places as channels. -/
inductive Fits : List (Option Channel) → List Channel → Prop
  | nil : Fits [] []
  | taken {places others} (channel : Channel) (fits : Fits places others) : Fits (some channel :: places) others
  | free {places others} (channel : Channel) (fits : Fits places others) : Fits (none :: places) (channel :: others)

variable {places : List (Option Channel)} {others : List Channel}

theorem fits_of_count (same : places.count none = others.length) :
    Fits places others := by
  induction places generalizing others with
  | nil =>
    obtain rfl : others = [] := length_eq_zero_iff.mp same.symm
    exact .nil
  | cons place places ih =>
    cases place with
    | some channel => exact .taken channel (ih (by simpa using same))
    | none =>
      cases others with
      | nil => simp at same
      | cons channel others => exact .free channel (ih (by simpa using same))

theorem perm_fillPlaces (fits : Fits places others) :
    (fillPlaces places others).Perm (places.reduceOption ++ others) := by
  induction fits with
  | nil => exact Perm.refl _
  | taken channel _ ih =>
    exact ih.cons channel
  | free channel _ ih =>
    exact (ih.cons channel).trans perm_middle.symm

theorem requestedIDs (found : ∀ item ∈ positions, ∃ channel ∈ channels, channel.id = item.1) :
    (positions.filterMap fun item => channels.find? fun channel => channel.id = item.1).map Channel.id =
      positions.map Prod.fst := by
  induction positions with
  | nil => rfl
  | cons item positions ih =>
    obtain ⟨channel, member, id⟩ := found item mem_cons_self
    cases here : channels.find? fun channel => channel.id = item.1 with
    | none => exact absurd id (by simpa using find?_eq_none.mp here channel member)
    | some first =>
      have same : first.id = item.1 := by simpa using find?_some here
      rw [filterMap_cons, here, map_cons, map_cons, same,
        ih fun other later => found other (mem_cons_of_mem _ later)]

variable (nodup : (channels.map Channel.id).Nodup) (once : (positions.map Prod.fst).Nodup)

include nodup once

theorem perm_requested (found : ∀ item ∈ positions, ∃ channel ∈ channels, channel.id = item.1) :
    (positions.filterMap fun item => channels.find? fun channel => channel.id = item.1).Perm
      (channels.filter fun channel => !(positions.lookup channel.id).isNone) := by
  have ids := requestedIDs found
  refine (perm_ext_iff_of_nodup (Nodup.of_map Channel.id (ids ▸ once)) (nodup.of_map.filter _)).mpr ?_
  intro channel
  simp only [mem_filterMap, mem_filter, Bool.not_eq_true', Option.isNone_eq_false_iff]
  constructor
  · rintro ⟨item, member, here⟩
    have id : channel.id = item.1 := by simpa using find?_some here
    refine ⟨mem_of_find?_eq_some here, ?_⟩
    rw [id]
    exact lookup_isSome_iff.mpr ⟨item, member, by simp⟩
  · rintro ⟨member, requested⟩
    obtain ⟨item, listed, same⟩ := lookup_isSome_iff.mp requested
    have same : channel.id = item.1 := by simpa using same
    refine ⟨item, listed, find?_of_only member (by simp [same]) fun other isOther id => ?_⟩
    exact inj_on_of_nodup_map nodup isOther member ((of_decide_eq_true id).trans same.symm)

variable {filled : List (Option Channel)}
  (placed : placeRequested channels positions (List.replicate channels.length none) = .ok filled)

include placed

/-- The requested channels take their places, and leave as many as there are other channels. -/
theorem placeRequested_leaves :
    filled.reduceOption.Perm (channels.filter fun channel => !(positions.lookup channel.id).isNone) ∧
      Fits filled (channels.filter fun channel => (positions.lookup channel.id).isNone) := by
  obtain ⟨perm, counted, found⟩ := placeRequested_eq_ok placed
  rw [reduceOption_replicate_none, append_nil] at perm
  rw [count_replicate_self] at counted
  have all := perm_requested nodup once found
  have lengths := length_eq_length_filter_add (l := channels) fun channel => (positions.lookup channel.id).isNone
  have requested := congrArg length (requestedIDs found)
  rw [length_map, length_map, all.length_eq] at requested
  exact ⟨perm.trans all, fits_of_count (by omega)⟩

theorem perm_filled :
    (fillPlaces filled (channels.filter fun channel => (positions.lookup channel.id).isNone)).Perm channels := by
  obtain ⟨perm, fits⟩ := placeRequested_leaves nodup once placed
  refine (perm_fillPlaces fits).trans ((perm.append_right _).trans ?_)
  exact perm_append_comm.trans (filter_append_perm ..)

omit placed in
/-- A reordering numbers all channels, grouped. -/
theorem normalizeGuildChannelPlacements_eq_ok {parentIDs : List (ℤ × ℤ)} {updates : List PositionUpdate}
    (normalized : normalizeGuildChannelPlacements channels positions parentIDs = .ok updates) :
    ∃ ordered : List Channel, ordered.Perm channels ∧ Grouped (resolvedChannelParentID parentIDs) ordered ∧
      updates = orderUpdates (resolvedChannelParentID parentIDs) ordered := by
  obtain ⟨filled, placed, rfl⟩ := Go.map_eq_ok.mp normalized
  exact ⟨_, (perm_uncategorizedFirst ..).trans (perm_filled nodup once placed), grouped_uncategorizedFirst .., rfl⟩

end Reorder

section Move

/-- The list up to the last entry that is picked ends with it, and nothing behind it is picked. -/
theorem getLast?_picked {α : Type} (picked : α → Bool) {entries : List α} {last : α}
    (found : (entries.zipIdx.filter fun entry => picked entry.1).getLast? = some (last, index)) :
    (entries.take (index + 1)).getLast? = some last ∧ picked last = true ∧
      ∀ entry ∈ entries.drop (index + 1), picked entry = false := by
  induction entries using reverseRecOn with
  | nil => cases found
  | append_singleton entries entry ih =>
    rw [zipIdx_append, filter_append] at found
    cases chosen : picked entry with
    | true =>
      simp only [zipIdx_singleton, filter_cons, chosen, ↓reduceIte, filter_nil,
        getLast?_append, getLast?_singleton, Option.some_or, Option.some.injEq, Prod.mk.injEq] at found
      obtain ⟨rfl, rfl⟩ := found
      rw [take_of_length_le (by simp), drop_of_length_le (by simp)]
      exact ⟨getLast?_concat .., chosen, by simp⟩
    | false =>
      simp only [zipIdx_singleton, filter_cons, chosen, Bool.false_eq_true, ↓reduceIte, filter_nil,
        append_nil] at found
      obtain ⟨ends, isPicked, behind⟩ := ih found
      have inside := mem_of_mem_filter (mem_of_getLast? found)
      have bound : index < entries.length := (List.getElem?_eq_some_iff.mp (List.mk_mem_zipIdx_iff_getElem?.mp inside)).1
      rw [take_append_of_le_length bound, drop_append_of_le_length bound]
      refine ⟨ends, isPicked, fun other member => ?_⟩
      rcases mem_append.mp member with earlier | same
      · exact behind other earlier
      · rw [mem_singleton.mp same]
        exact chosen

/-- The place of a channel that gets a parent, among the others: before the first that is in a category or is
one, or right behind the last of its new parent and the channels in it. -/
def PlacedFor (parentID : ℤ) (front back : List Channel) : Prop :=
  if parentID = 0 then
    (∀ channel ∈ front, channel.Uncategorized = true) ∧ ∀ channel ∈ back.head?, channel.Uncategorized = false
  else
    (∃ last ∈ front.getLast?, last.id = parentID ∨ last.parentID = parentID) ∧
      ∀ channel ∈ back, ¬ (channel.id = parentID ∨ channel.parentID = parentID)

variable {channelID parentID : ℤ} {front back : List Channel}

theorem placedFor_of_destination {destination : ℕ} (found : parentDestination channels parentID = .ok destination) :
    PlacedFor parentID (channels.take destination) (channels.drop destination) := by
  unfold parentDestination at found
  unfold PlacedFor
  split_ifs at found ⊢
  · cases found
    have same : (channels.findIdx? fun channel => !isUncategorizedChannel channel.type channel.parentID).getD
        channels.length = channels.findIdx fun channel => !channel.Uncategorized := findIdx_eq_getD_findIdx?.symm
    rw [same, ← takeWhile_eq_take_findIdx_not, ← dropWhile_eq_drop_findIdx_not]
    refine ⟨fun channel member => all_eq_true.mp all_takeWhile channel member, fun channel first => ?_⟩
    have left := head?_dropWhile_not Uncategorized channels
    rw [first] at left
    exact left
  · split at found
    · next last index isLast =>
      cases found
      obtain ⟨ends, family, behind⟩ := getLast?_picked
        (fun channel : Channel => channel.id = parentID ∨ channel.parentID = parentID) isLast
      exact ⟨⟨last, ends, of_decide_eq_true family⟩, fun channel member => of_decide_eq_false (behind channel member)⟩
    · cases found

/-- Behind the place of a channel there is none without a category. -/
theorem PlacedFor.behind (placed : PlacedFor parentID front back) (grouped : Grouped Channel.parentID (front ++ back))
    (isCategory : parentID ≠ 0 → ∀ channel ∈ front, channel.id = parentID → channel.type = .category) :
    ∀ channel ∈ back, channel.Uncategorized = false := by
  obtain ⟨_, inBack, across⟩ := pairwise_append.mp grouped
  intro channel member
  by_contra without
  have without : channel.Uncategorized = true := Bool.eq_true_of_not_eq_false without
  unfold PlacedFor at placed
  split_ifs at placed with root
  · cases back with
    | nil => cases member
    | cons first rest =>
      have has : first.Uncategorized = false := placed.2 first rfl
      rcases mem_cons.mp member with rfl | later
      · exact absurd without (by rw [has]; decide)
      · have also : first.Uncategorized = true := (pairwise_cons.mp inBack).1 channel later without
        rw [has] at also
        cases also
  · obtain ⟨⟨last, ends, family⟩, _⟩ := placed
    have also : last.Uncategorized = true := across last (mem_of_getLast? ends) channel member without
    simp only [Uncategorized, isUncategorizedChannel, decide_eq_true_eq] at also
    rcases family with isParent | isChild
    · exact also.2 (isCategory root last (mem_of_getLast? ends) isParent)
    · exact root (isChild.symm.trans also.1)

/-- The parents when a channel has moved. -/
def movedParent (channelID parentID : ℤ) (channel : Channel) : ℤ :=
  if channel.id = channelID then parentID else channel.parentID

/-- The moved channel does not come between the channels without a category. -/
theorem grouped_move {moving : Channel} (id : moving.id = channelID) (placed : PlacedFor parentID front back)
    (split : front ++ back = channels.filter fun channel => channel.id ≠ channelID)
    (grouped : Grouped Channel.parentID channels)
    (isCategory : parentID ≠ 0 → ∀ channel ∈ channels, channel.id ≠ channelID → channel.id = parentID →
      channel.type = .category) :
    Grouped (movedParent channelID parentID) (front ++ moving :: back) := by
  have other {channel : Channel} (member : channel ∈ front ++ back) : channel ∈ channels ∧ channel.id ≠ channelID := by
    rw [split, mem_filter, decide_eq_true_eq] at member
    exact member
  have stays {channel : Channel} (member : channel ∈ front ++ back) :
      movedParent channelID parentID channel = channel.parentID := if_neg (other member).2
  have together : Grouped Channel.parentID (front ++ back) := split ▸ grouped.sublist filter_sublist
  have behind := placed.behind together fun child channel member =>
    isCategory child channel (other (mem_append_left _ member)).1 (other (mem_append_left _ member)).2
  have rest : Grouped (movedParent channelID parentID) (front ++ back) := by
    refine Pairwise.imp_of_mem (fun {one other} isOne isOther together => ?_) together
    rw [stays isOne, stays isOther]
    exact together
  obtain ⟨inFront, inBack, across⟩ := pairwise_append.mp rest
  refine pairwise_append.mpr ⟨inFront, pairwise_cons.mpr ⟨fun channel there without => ?_, inBack⟩, ?_⟩
  · rw [stays (mem_append_right _ there)] at without
    exact absurd without (by rw [← Uncategorized, behind channel there]; decide)
  · intro channel here other there
    rcases mem_cons.mp there with rfl | there
    · intro without
      rw [movedParent, if_pos id, isUncategorizedChannel, decide_eq_true_eq] at without
      rw [stays (mem_append_left _ here)]
      rw [PlacedFor, if_pos without.1] at placed
      exact placed.1 channel here
    · exact across channel here other there

/-- A move takes the channel out of the order and puts it at its place, and numbers all channels. -/
theorem channelParentMoveUpdates_eq_ok {updates : List PositionUpdate}
    (nodup : (channels.map Channel.id).Nodup)
    (moved : channelParentMoveUpdates channels channelID parentID = .ok updates) :
    ∃ moving ∈ channels, ∃ front back, moving.id = channelID ∧
      front ++ back = channels.filter (fun channel => channel.id ≠ channelID) ∧
      (front ++ moving :: back).Perm channels ∧ PlacedFor parentID front back ∧
      updates = orderUpdates (movedParent channelID parentID) (front ++ moving :: back) := by
  obtain ⟨moving, loaded, moved⟩ := Go.bind_eq_ok.mp moved
  obtain ⟨destination, found, updated⟩ := Go.bind_eq_ok.mp moved
  have loaded := found_eq_ok.mp loaded
  have id : moving.id = channelID := by simpa using find?_some loaded
  have member := mem_of_find?_eq_some loaded
  cases updated
  refine ⟨moving, member, _, _, id, take_append_drop .., ?_, placedFor_of_destination found, by rw [id]; rfl⟩
  refine perm_middle.trans ?_
  rw [take_append_drop]
  refine (perm_ext_iff_of_nodup (nodup_cons.mpr ⟨by simp [id], nodup.of_map.filter _⟩) nodup.of_map).mpr ?_
  intro channel
  simp only [mem_cons, mem_filter, decide_not, Bool.not_eq_true', decide_eq_false_iff_not]
  constructor
  · rintro (rfl | ⟨inside, _⟩)
    · exact member
    · exact inside
  · intro inside
    by_cases same : channel.id = channelID
    · exact .inl (inj_on_of_nodup_map nodup inside member (same.trans id.symm))
    · exact .inr ⟨inside, same⟩

/-- Whatever the order was, a move leaves the other channels in theirs and with their parents, puts the moved one at
the place of its parent and makes an update for each channel that changes. Channels without a category stay in
front if the parent is a category. -/
theorem channelParentMoveUpdates_places {updates : List GuildTables.PositionUpdate}
    (nodup : (channels.map Channel.id).Nodup)
    (moved : channelParentMoveUpdates channels channelID parentID = .ok updates) :
    ∃ moving ∈ channels, ∃ front back, moving.id = channelID ∧
      front ++ back = channels.filter (fun channel => channel.id ≠ channelID) ∧
      (front ++ moving :: back).Perm channels ∧ PlacedFor parentID front back ∧
      Renumbers (movedParent channelID parentID) (front ++ moving :: back) updates ∧
      (moving.parentID ≠ parentID → channelID ∈ updates.map (·.channelID)) ∧
      (Grouped Channel.parentID channels → (parentID ≠ 0 → ∀ channel ∈ channels, channel.id ≠ channelID →
          channel.id = parentID → channel.type = .category) →
        Grouped Channel.parentID ((front ++ moving :: back).map (GuildTables.place updates))) := by
  obtain ⟨moving, member, front, back, rfl, split, perm, placed, rfl⟩ := channelParentMoveUpdates_eq_ok nodup moved
  have once : ((front ++ moving :: back).map Channel.id).Nodup := (perm.map Channel.id).nodup_iff.mpr nodup
  have renumbers : Renumbers (movedParent moving.id parentID) (front ++ moving :: back) _ := renumbers_orderUpdates once
  refine ⟨moving, member, front, back, rfl, split, perm, placed, renumbers, fun changes => ?_, fun grouped isCategory => ?_⟩
  · rw [renumbers.reported]
    apply List.mem_map_of_mem
    refine List.mem_filter.mpr ⟨by simp, decide_eq_true fun same => changes ?_⟩
    have parent := renumbers.parents moving (by simp)
    rw [same, movedParent, if_pos rfl] at parent
    exact parent
  · exact (grouped_move rfl placed split grouped isCategory).place once

def categoryChannels : List Channel :=
  [⟨1, 30, .text, 0, 0, false⟩, ⟨2, 30, .category, 1, 0, false⟩, ⟨3, 30, .text, 2, 2, false⟩]

theorem moved_into_category : ∃ updates, channelParentMoveUpdates categoryChannels 1 2 = .ok updates ∧
    1 ∈ updates.map (·.channelID) := by
  have outside : ∀ channel ∈ categoryChannels, channel.id = 1 → channel.parentID ≠ 2 := by decide
  obtain ⟨updates, moved⟩ : ∃ updates, channelParentMoveUpdates categoryChannels 1 2 = .ok updates := ⟨_, rfl⟩
  obtain ⟨moving, member, _, _, id, _, _, _, _, reported, _⟩ := channelParentMoveUpdates_places (by decide) moved
  exact ⟨updates, moved, reported (outside moving member id)⟩

/-- A channel that is moved below a channel without a category comes between those without one. -/
theorem moved_below_plain_channel : ∃ channels updates, (channels.map Channel.id).Nodup ∧
    (∀ channel ∈ channels, channel.Uncategorized = true) ∧ channelParentMoveUpdates channels 3 1 = .ok updates ∧
    ∃ channel ∈ channels.map (GuildTables.place updates), ∃ other ∈ channels.map (GuildTables.place updates),
      channel.Uncategorized = true ∧ other.Uncategorized = false ∧ other.position < channel.position :=
  ⟨[⟨1, 30, .text, 0, 0, false⟩, ⟨2, 30, .text, 1, 0, false⟩, ⟨3, 30, .text, 2, 0, false⟩], [⟨3, 1, 1⟩, ⟨2, 2, 0⟩],
    by decide, by decide, rfl, by decide⟩

end Move

section Insert

private theorem le_nextPosition (channels : List Channel) (start : ℕ) :
    let next := channels.foldl (fun position channel =>
      if position ≤ channel.position then channel.position + 1 else position) start
    start ≤ next ∧ ∀ channel ∈ channels, channel.position < next := by
  induction channels generalizing start with
  | nil => simp
  | cons first channels ih =>
    obtain ⟨above, behind⟩ := ih (if start ≤ first.position then first.position + 1 else start)
    simp only [foldl_cons, forall_mem_cons]
    refine ⟨?_, ?_, behind⟩
    · split_ifs at above ⊢ <;> omega
    · split_ifs at above ⊢ <;> omega

theorem lt_nextGuildChannelPosition (member : channel ∈ channels) :
    channel.position < nextGuildChannelPosition channels :=
  (le_nextPosition channels 0).2 channel member

private theorem insertPosition_cases (channels : List Channel) (start : ℕ) :
    let position := channels.foldl (fun position channel =>
      if !isUncategorizedChannel channel.type channel.parentID && channel.position < position then channel.position
      else position) start
    position ≤ start ∧ (∀ channel ∈ channels, channel.Uncategorized = false → position ≤ channel.position) ∧
      (position = start ∨ ∃ channel ∈ channels, channel.Uncategorized = false ∧ position = channel.position) := by
  induction channels generalizing start with
  | nil => simp
  | cons first channels ih =>
    obtain ⟨below, all, found⟩ := ih
      (if !isUncategorizedChannel first.type first.parentID && first.position < start then first.position else start)
    simp only [foldl_cons, forall_mem_cons, exists_mem_cons_iff]
    split_ifs at below all found ⊢ with lower
    · simp only [Bool.and_eq_true, Bool.not_eq_true', decide_eq_true_eq] at lower
      refine ⟨by omega, ⟨fun _ => below, all⟩, .inr ?_⟩
      rcases found with same | other
      · exact .inl ⟨lower.1, same⟩
      · exact .inr other
    · refine ⟨below, ⟨fun has => ?_, all⟩, found.imp_right .inr⟩
      have has : isUncategorizedChannel first.type first.parentID = false := has
      simp only [has, Bool.not_false, Bool.true_and, decide_eq_true_eq] at lower
      omega

/-- It goes behind the others without a category. -/
theorem lt_uncategorizedChannelInsertPosition (layout : LayoutOrdered channels) (member : channel ∈ channels)
    (without : channel.Uncategorized = true) : channel.position < uncategorizedChannelInsertPosition channels := by
  rcases (insertPosition_cases channels (nextGuildChannelPosition channels)).2.2 with last | ⟨other, isOther, has, here⟩
  · exact lt_of_lt_of_eq (lt_nextGuildChannelPosition member) last.symm
  · exact lt_of_lt_of_eq (layout.first channel member other isOther without has) here.symm

theorem uncategorizedChannelInsertPosition_le (member : channel ∈ channels) (has : channel.Uncategorized = false) :
    uncategorizedChannelInsertPosition channels ≤ channel.position :=
  (insertPosition_cases channels _).2.1 channel member has

/-- The channels from a position on move up by one. -/
def Channel.shift (start : ℕ) (channel : Channel) : Channel :=
  { channel with position := if start ≤ channel.position then channel.position + 1 else channel.position }

theorem position_shift (start : ℕ) (channel : Channel) : (channel.shift start).position =
    if start ≤ channel.position then channel.position + 1 else channel.position :=
  rfl

theorem place_shiftUpdates (nodup : (channels.map Channel.id).Nodup) (member : channel ∈ channels) (position : ℕ) :
    place (shiftUpdates channels position) channel = channel.shift position := by
  unfold place placement shift
  cases found : (shiftUpdates channels position).find? fun update => update.channelID = channel.id with
  | none =>
    have missing := find?_eq_none.mp found
    have below : ¬ position ≤ channel.position := by
      intro behind
      have listed : ⟨channel.id, channel.position + 1, channel.parentID⟩ ∈ shiftUpdates channels position :=
        mem_map.mpr ⟨channel, mem_filter.mpr ⟨member, by simpa using behind⟩, rfl⟩
      simpa using missing _ listed
    rw [if_neg below]
    rfl
  | some update =>
    have same : update.channelID = channel.id := by simpa using find?_some found
    obtain ⟨other, shifted, rfl⟩ := mem_map.mp (mem_of_find?_eq_some found)
    obtain ⟨isOther, behind⟩ := mem_filter.mp shifted
    obtain rfl := inj_on_of_nodup_map nodup isOther member same
    rw [if_pos (by simpa using behind)]
    rfl

/-- An order that has got a channel, behind those without a category, and before those with one if it has none. -/
theorem LayoutOrdered.insert (layout : LayoutOrdered channels) (new : Channel)
    (parent : new.parentID ≠ 0 → ∃ parent ∈ channels, parent.id = new.parentID ∧ parent.type = .category)
    (behind : ∀ channel ∈ channels, channel.Uncategorized = true → channel.position < new.position)
    (before : new.Uncategorized = true → ∀ channel ∈ channels, channel.Uncategorized = false →
      new.position ≤ channel.position) : LayoutOrdered (channels.map (shift new.position) ++ [new]) := by
  constructor
  · intro one isOne other isOther same
    simp only [mem_append, mem_map, mem_singleton] at isOne isOther
    rcases isOne with ⟨one, inOne, rfl⟩ | rfl <;> rcases isOther with ⟨other, inOther, rfl⟩ | rfl
    · have before : one.position = other.position := by
        rw [position_shift, position_shift] at same
        split_ifs at same <;> omega
      rw [layout.distinct one inOne other inOther before]
    · rw [position_shift] at same
      split_ifs at same <;> omega
    · rw [position_shift] at same
      split_ifs at same <;> omega
    · rfl
  · intro one isOne child
    simp only [mem_append, mem_map, mem_singleton] at isOne
    have named : ∃ parent ∈ channels, parent.id = one.parentID ∧ parent.type = .category := by
      rcases isOne with ⟨one, inOne, rfl⟩ | rfl
      · exact layout.parents one inOne child
      · exact parent child
    obtain ⟨parent, isParent, named⟩ := named
    exact ⟨_, mem_append_left _ (mem_map_of_mem isParent), named⟩
  · intro one isOne other isOther without has
    simp only [mem_append, mem_map, mem_singleton] at isOne isOther
    rcases isOne with ⟨one, inOne, rfl⟩ | rfl <;> rcases isOther with ⟨other, inOther, rfl⟩ | rfl
    · have less := layout.first one inOne other inOther without has
      rw [position_shift, position_shift]
      split_ifs <;> omega
    · have less := behind one inOne without
      rw [position_shift]
      split_ifs <;> omega
    · have less := before without other inOther has
      rw [position_shift, if_pos less]
      omega
    · rw [without] at has
      cases has

end Insert

section Detach

/-- A channel of a category that goes has no parent any more. -/
def Channel.detach (categoryID : ℤ) (channel : Channel) : Channel :=
  if channel.parentID = categoryID then { channel with parentID := 0 } else channel

/-- The channels of the category stand before every other category and the channels in them. -/
def DetachesInOrder (channels : List Channel) (categoryID : ℤ) : Prop :=
  ∀ child ∈ channels, child.parentID = categoryID → ∀ other ∈ channels, other.id ≠ categoryID →
    other.type = .category ∨ other.parentID ≠ 0 ∧ other.parentID ≠ categoryID → child.position < other.position
deriving Decidable

theorem id_detach (categoryID : ℤ) (channel : Channel) : (channel.detach categoryID).id = channel.id := by
  unfold detach
  split_ifs <;> rfl

theorem position_detach (categoryID : ℤ) (channel : Channel) :
    (channel.detach categoryID).position = channel.position := by
  unfold detach
  split_ifs <;> rfl

theorem type_detach (categoryID : ℤ) (channel : Channel) : (channel.detach categoryID).type = channel.type := by
  unfold detach
  split_ifs <;> rfl

theorem parentID_detach (categoryID : ℤ) (channel : Channel) :
    (channel.detach categoryID).parentID = if channel.parentID = categoryID then 0 else channel.parentID := by
  unfold detach
  split_ifs <;> rfl

/-- Without the channel, and with the ones in it detached, the layout is in order if these stand before
the other categories. -/
theorem LayoutOrdered.remove (layout : LayoutOrdered channels) {channelID : ℤ}
    (inOrder : DetachesInOrder channels channelID) :
    LayoutOrdered ((channels.filter fun channel => channel.id ≠ channelID).map (detach channelID)) := by
  have split {row : Channel} (member : row ∈ (channels.filter fun channel => channel.id ≠ channelID).map
      (detach channelID)) : ∃ channel ∈ channels, channel.id ≠ channelID ∧ channel.detach channelID = row := by
    obtain ⟨channel, inside, rfl⟩ := mem_map.mp member
    obtain ⟨inside, other⟩ := mem_filter.mp inside
    exact ⟨channel, inside, by simpa using other, rfl⟩
  constructor
  · intro one isOne other isOther same
    obtain ⟨one, inOne, _, rfl⟩ := split isOne
    obtain ⟨other, inOther, _, rfl⟩ := split isOther
    rw [position_detach, position_detach] at same
    rw [layout.distinct one inOne other inOther same]
  · intro one isOne child
    obtain ⟨one, inOne, _, rfl⟩ := split isOne
    rw [parentID_detach] at child ⊢
    split_ifs at child ⊢ with detached
    · exact (child rfl).elim
    · obtain ⟨parent, isParent, id, category⟩ := layout.parents one inOne child
      have stays : parent.id ≠ channelID := by
        rw [id]
        exact detached
      refine ⟨_, mem_map_of_mem (mem_filter.mpr ⟨isParent, by simpa using stays⟩), ?_, ?_⟩
      · rw [id_detach, id]
      · rw [type_detach, category]
  · intro one isOne other isOther without has
    obtain ⟨one, inOne, _, rfl⟩ := split isOne
    obtain ⟨other, inOther, stays, rfl⟩ := split isOther
    rw [position_detach, position_detach]
    simp only [Uncategorized, isUncategorizedChannel, type_detach, parentID_detach, decide_eq_true_eq,
      decide_eq_false_iff_not, not_and_or, not_not] at without has
    obtain ⟨root, notCategory⟩ := without
    by_cases child : one.parentID = channelID
    · refine inOrder one inOne child other inOther stays ?_
      rcases has with inside | category
      · split_ifs at inside with detached
        · exact (inside rfl).elim
        · exact .inr ⟨inside, detached⟩
      · exact .inl category
    · rw [if_neg child] at root
      have without : one.Uncategorized = true := by simp [Uncategorized, isUncategorizedChannel, root, notCategory]
      refine layout.first one inOne other inOther without ?_
      rcases has with inside | category
      · split_ifs at inside with detached
        · exact (inside rfl).elim
        · simp [Uncategorized, isUncategorizedChannel, inside]
      · simp [Uncategorized, isUncategorizedChannel, category]

end Detach

end Lists

end Cordis.Guild
