import Cordis.Guild.ChannelLayout
import Cordis.Guild.StatementEffects

/-! # Reordering the channels of a guild

A reordering puts the requested channels at their places, fills the places that are left with the other
channels in their order, and takes the channels without a category to the front. The loop that fills the
places always finds one. A request that is applied again to what it has given changes nothing if the
channels were grouped: the other channels then come back in the same order and get the same places.
-/

namespace Cordis.Guild

open GuildTables List

/-- Where the search for a free place ends; past the last place there is nothing to read. -/
def freePlace (places : List (Option Channel)) (next : ℕ) : Option ℕ :=
  ((places.drop next).findIdx? Option.isNone).map (next + ·)

/-- The loop that fills the places, which goes on from the place it has filled last. -/
def fillFree (places : List (Option Channel)) (next : ℕ) : List Channel → Option (List (Option Channel))
  | [] => some places
  | channel :: others => do
    let free ← freePlace places next
    fillFree (places.set free (some channel)) free others

def unrequested (positions : List (ℤ × ℕ)) (channel : Channel) : Bool := (positions.lookup channel.id).isNone

variable {channels : List Channel} {places : List (Option Channel)} {others : List Channel}

theorem freePlace_none (front : List (Option Channel)) : freePlace (front ++ none :: places) front.length = some front.length := by
  simp [freePlace, findIdx?_cons]

theorem fillFree_some (front : List (Option Channel)) (channel : Channel) :
    fillFree (front ++ some channel :: places) front.length others =
      fillFree (front ++ some channel :: places) (front.length + 1) others := by
  cases others with
  | nil => rfl
  | cons => simp [fillFree, freePlace, findIdx?_cons, drop_length_add_append, Function.comp_def, Nat.add_assoc,
      Nat.add_comm 1]

/-- If there are as many places as channels, the loop finds a place for each. -/
theorem fillFree_eq_some (fits : Fits places others) (front : List (Option Channel)) :
    fillFree (front ++ places) front.length others = some (front ++ (fillPlaces places others).map some) := by
  induction fits generalizing front with
  | nil => rfl
  | taken channel _ ih => simpa [fillFree_some, fillPlaces] using ih (front ++ [some channel])
  | free channel _ ih =>
    simpa [fillFree, freePlace_none, fillFree_some, fillPlaces] using ih (front ++ [some channel])

theorem filter_fillPlaces {picked : Channel → Bool} (fits : Fits places others)
    (left : ∀ channel ∈ places.reduceOption, picked channel = false) (taken : ∀ channel ∈ others, picked channel = true) :
    (fillPlaces places others).filter picked = others := by
  induction fits with
  | nil => rfl
  | taken channel _ ih =>
    rw [reduceOption_cons_of_some, forall_mem_cons] at left
    rw [fillPlaces, filter_cons_of_neg (by simp [left.1])]
    exact ih left.2 taken
  | free channel _ ih =>
    rw [forall_mem_cons] at taken
    rw [fillPlaces, filter_cons_of_pos taken.1, ih left taken.2]

variable {move : Channel → Channel}

theorem map_fillPlaces (places : List (Option Channel)) (others : List Channel) :
    fillPlaces (places.map (Option.map move)) (others.map move) = (fillPlaces places others).map move := by
  fun_induction fillPlaces places others with simp_all [fillPlaces]

/-- Other rows for the same channels are put at the same places. -/
theorem placeRequested_map {rows : List Channel} (length : rows.length = channels.length)
    (same : ∀ id, rows.find? (fun channel => channel.id = id) = (channels.find? fun channel => channel.id = id).map move)
    {positions : List (ℤ × ℕ)} {filled : List (Option Channel)} (placed : placeRequested channels positions places = .ok filled) :
    placeRequested rows positions (places.map (Option.map move)) = .ok (filled.map (Option.map move)) := by
  induction positions generalizing places with
  | nil =>
    cases placed
    rfl
  | cons item positions ih =>
    obtain ⟨_, inside, placed⟩ := Go.bind_eq_ok.mp placed
    obtain ⟨channel, loaded, placed⟩ := Go.bind_eq_ok.mp placed
    obtain ⟨_, free, placed⟩ := Go.bind_eq_ok.mp placed
    refine Go.bind_eq_ok.mpr ⟨_, length ▸ inside, Go.bind_eq_ok.mpr ⟨move channel, ?_, Go.bind_eq_ok.mpr ⟨(), ?_, ?_⟩⟩⟩
    · rw [found_eq_ok] at loaded ⊢
      rw [same, loaded, Option.map_some]
    · rw [Go.require_eq_ok] at free ⊢
      rw [getElem?_map, free, Option.map_some, Option.map_none]
    · rw [← Option.map_some, ← map_set]
      exact ih placed

section Classes

variable {parentOf : Channel → ℤ} {ordered : List Channel}

theorem filter_uncategorizedFirst (picked : Channel → Bool) :
    (uncategorizedFirst parentOf ordered).filter picked = uncategorizedFirst parentOf (ordered.filter picked) := by
  simp [uncategorizedFirst, Bool.and_comm]

/-- Each class is as it was. -/
theorem class_uncategorizedFirst (uncategorized : Bool) :
    (uncategorizedFirst parentOf ordered).filter
        (fun channel => isUncategorizedChannel channel.type (parentOf channel) == uncategorized) =
      ordered.filter fun channel => isUncategorizedChannel channel.type (parentOf channel) == uncategorized := by
  cases uncategorized <;> simp [uncategorizedFirst]

theorem uncategorizedFirst_of_grouped (grouped : Grouped parentOf ordered) : uncategorizedFirst parentOf ordered = ordered := by
  induction ordered with
  | nil => rfl
  | cons channel ordered ih =>
    obtain ⟨behind, grouped⟩ := pairwise_cons.mp grouped
    unfold uncategorizedFirst at ih ⊢
    cases first : isUncategorizedChannel channel.type (parentOf channel) with
    | true => simp [first, ih grouped]
    | false =>
      have none : ∀ other ∈ ordered, isUncategorizedChannel other.type (parentOf other) = false :=
        fun other later => Bool.eq_false_iff.mpr fun without => by simp [behind other later without] at first
      rw [filter_cons_of_neg (by simp [first]), filter_cons_of_pos (by simp [first]),
        filter_eq_nil_iff.mpr (by simpa using none), filter_eq_self.mpr (by simpa using none), nil_append]

theorem map_uncategorizedFirst
    (same : ∀ channel ∈ ordered, (move channel).type = channel.type ∧ parentOf (move channel) = parentOf channel) :
    uncategorizedFirst parentOf (ordered.map move) = (uncategorizedFirst parentOf ordered).map move := by
  unfold uncategorizedFirst
  rw [filter_map, filter_map, map_append]
  congr 2
  · exact filter_congr fun channel member => by simp [same channel member]
  · exact filter_congr fun channel member => by simp [same channel member]

end Classes

section Placed

variable {positions : List (ℤ × ℕ)} {parentIDs : List (ℤ × ℤ)} {filled : List (Option Channel)}
  (resolved : ∀ id, positions.lookup id = none → parentIDs.lookup id = none)

include resolved

theorem resolvedChannelParentID_of_unrequested {channel : Channel} (free : unrequested positions channel = true) :
    resolvedChannelParentID parentIDs channel = channel.parentID := by
  rw [resolvedChannelParentID, resolved _ (Option.isNone_iff_eq_none.mp free), Option.getD_none]

variable (nodup : (channels.map Channel.id).Nodup) (once : (positions.map Prod.fst).Nodup)
  (placed : placeRequested channels positions (List.replicate channels.length none) = .ok filled)

include nodup once placed

omit resolved in
/-- The channels that are not requested have kept their order. -/
theorem filter_filled : (fillPlaces filled (channels.filter (unrequested positions))).filter (unrequested positions) =
    channels.filter (unrequested positions) := by
  obtain ⟨requested, fits⟩ := placeRequested_leaves nodup once placed
  refine filter_fillPlaces fits (fun channel member => ?_) fun channel member => (mem_filter.mp member).2
  exact (Bool.not_eq_true' _).mp (mem_filter.mp (requested.mem_iff.mp member)).2

/-- The same request finds all channels in their places. -/
theorem normalize_again (grouped : Grouped Channel.parentID channels) :
    let ordered := uncategorizedFirst (resolvedChannelParentID parentIDs)
      (fillPlaces filled (channels.filter (unrequested positions)))
    normalizeGuildChannelPlacements
      (ordered.map (place (orderUpdates (resolvedChannelParentID parentIDs) ordered))) positions parentIDs =
        .ok [] := by
  intro ordered
  have perm : ordered.Perm channels := (perm_uncategorizedFirst ..).trans (perm_filled nodup once placed)
  have ids : (ordered.map Channel.id).Nodup := (perm.map Channel.id).nodup_iff.mpr nodup
  set move := place (orderUpdates (resolvedChannelParentID parentIDs) ordered) with isMove
  have idMove (channel : Channel) : (move channel).id = channel.id := id_place ..
  have same (channel : Channel) (member : channel ∈ ordered) : (move channel).type = channel.type ∧
      resolvedChannelParentID parentIDs (move channel) = resolvedChannelParentID parentIDs channel := by
    obtain ⟨index, here⟩ := mem_iff_getElem?.mp member
    rw [isMove, place_orderUpdates ids here]
    refine ⟨rfl, ?_⟩
    unfold resolvedChannelParentID
    cases parentIDs.lookup channel.id <;> rfl
  have others : (ordered.map move).filter (unrequested positions) = (channels.filter (unrequested positions)).map move := by
    have moved : unrequested positions ∘ move = unrequested positions := by
      funext channel
      simp [unrequested, idMove]
    rw [filter_map, moved, filter_uncategorizedFirst, filter_filled nodup once placed, uncategorizedFirst_of_grouped]
    refine Pairwise.imp_of_mem (fun {one other} isOne isOther together => ?_) (grouped.sublist filter_sublist)
    rw [resolvedChannelParentID_of_unrequested resolved (mem_filter.mp isOne).2,
      resolvedChannelParentID_of_unrequested resolved (mem_filter.mp isOther).2]
    exact together
  have found (id : ℤ) : (ordered.map move).find? (fun channel => channel.id = id) =
      (channels.find? fun channel => channel.id = id).map move := by
    simp only [find?_map, Function.comp_def, idMove]
    congr 1
    cases here : channels.find? fun channel => channel.id = id with
    | none =>
      rw [find?_eq_none] at here ⊢
      exact fun channel member => here channel (perm.mem_iff.mp member)
    | some channel =>
      have member := perm.mem_iff.mpr (mem_of_find?_eq_some here)
      have isID : channel.id = id := by simpa using find?_some here
      refine find?_of_only member (decide_eq_true isID) fun other isOther isIDToo => ?_
      exact inj_on_of_nodup_map ids isOther member ((of_decide_eq_true isIDToo).trans isID.symm)
  have places := placeRequested_map (by rw [length_map, perm.length_eq]) found placed
  rw [map_replicate, Option.map_none] at places
  unfold normalizeGuildChannelPlacements
  rw [length_map, perm.length_eq, places]
  refine congrArg Except.ok (filterMap_eq_nil_iff.mpr fun (row, index) member => ?_)
  change (row, index) ∈ (uncategorizedFirst _ (fillPlaces _ ((ordered.map move).filter (unrequested positions)))).zipIdx at member
  rw [others, map_fillPlaces, map_uncategorizedFirst fun channel member => same channel
    ((perm_uncategorizedFirst _ _).mem_iff.mpr member), mk_mem_zipIdx_iff_getElem?, getElem?_map] at member
  obtain ⟨channel, here, rfl⟩ := Option.map_eq_some_iff.mp member
  refine if_pos ⟨?_, ?_⟩
  · rw [isMove, place_orderUpdates ids here]
  · rw [(same _ (mem_of_getElem? here)).2, isMove, place_orderUpdates ids here]

end Placed

/-- A reordering that is accepted finds a place for every channel. It numbers the channels from zero, those without a
category first, leaves the channels that are not requested in the order of their class and with their parents,
and makes an update for each channel that changes. Requested again, it changes nothing if the channels were grouped. -/
theorem normalizeGuildChannelPlacements_normalizes {positions : List (ℤ × ℕ)} {parentIDs : List (ℤ × ℤ)}
    {updates : List GuildTables.PositionUpdate} (nodup : (channels.map Channel.id).Nodup)
    (once : (positions.map Prod.fst).Nodup)
    (resolved : ∀ id, positions.lookup id = none → parentIDs.lookup id = none)
    (normalized : normalizeGuildChannelPlacements channels positions parentIDs = .ok updates) :
    ∃ filled placed ordered, placeRequested channels positions (List.replicate channels.length none) = .ok filled ∧
      fillFree filled 0 (channels.filter (unrequested positions)) = some (placed.map some) ∧
      ordered = uncategorizedFirst (resolvedChannelParentID parentIDs) placed ∧ ordered.Perm channels ∧
      Renumbers (resolvedChannelParentID parentIDs) ordered updates ∧
      Grouped Channel.parentID (ordered.map (GuildTables.place updates)) ∧
      (∀ uncategorized, ordered.filter (fun channel => unrequested positions channel && channel.Uncategorized == uncategorized) =
        channels.filter fun channel => unrequested positions channel && channel.Uncategorized == uncategorized) ∧
      (∀ channel ∈ channels, unrequested positions channel = true →
        (GuildTables.place updates channel).parentID = channel.parentID) ∧
      (Grouped Channel.parentID channels →
        normalizeGuildChannelPlacements (ordered.map (GuildTables.place updates)) positions parentIDs = .ok []) := by
  obtain ⟨filled, placed, rfl⟩ := Go.map_eq_ok.mp normalized
  have perm := (perm_uncategorizedFirst _ (resolvedChannelParentID parentIDs)).trans (perm_filled nodup once placed)
  have ids := (perm.map Channel.id).nodup_iff.mpr nodup
  have renumbers : Renumbers (resolvedChannelParentID parentIDs) _ _ := renumbers_orderUpdates ids
  refine ⟨filled, _, _, placed, fillFree_eq_some (placeRequested_leaves nodup once placed).2 [], rfl, perm, renumbers,
    (grouped_uncategorizedFirst ..).place ids, fun uncategorized => ?_, fun channel member free => ?_,
    normalize_again resolved nodup once placed⟩
  · have split (rows : List Channel) :
        rows.filter (fun channel => unrequested positions channel && channel.Uncategorized == uncategorized) =
          (rows.filter (unrequested positions)).filter fun channel =>
            isUncategorizedChannel channel.type (resolvedChannelParentID parentIDs channel) == uncategorized := by
      rw [List.filter_filter]
      refine List.filter_congr fun channel _ => ?_
      cases free : unrequested positions channel with
      | false => simp
      | true => simp [Channel.Uncategorized, resolvedChannelParentID_of_unrequested resolved free]
    rw [split, split, filter_uncategorizedFirst, class_uncategorizedFirst]
    exact congrArg _ (filter_filled nodup once placed)
  · exact (renumbers.parents channel (perm.mem_iff.mpr member)).trans
      (resolvedChannelParentID_of_unrequested resolved free)

/-- Channel 3 is taken out of its category and to the front. -/
theorem reordered_to_front : ∃ updates, normalizeGuildChannelPlacements categoryChannels [(3, 0)] [(3, 0)] = .ok updates ∧
    updates ≠ [] ∧ ∃ ordered : List Channel, ordered.Perm categoryChannels ∧
      normalizeGuildChannelPlacements (ordered.map (GuildTables.place updates)) [(3, 0)] [(3, 0)] = .ok [] := by
  obtain ⟨updates, normalized, changes⟩ : ∃ updates,
      normalizeGuildChannelPlacements categoryChannels [(3, 0)] [(3, 0)] = .ok updates ∧ updates ≠ [] := ⟨_, rfl, by decide⟩
  obtain ⟨_, _, ordered, _, _, _, perm, _, _, _, _, again⟩ := normalizeGuildChannelPlacements_normalizes (by decide)
    (by decide) (fun id free => by simpa using free) normalized
  refine ⟨updates, normalized, changes, ordered, perm, again ?_⟩
  unfold Grouped
  decide

end Cordis.Guild
