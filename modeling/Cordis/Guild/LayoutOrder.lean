import Cordis.Guild.ChannelLayout
import Cordis.Guild.StatementEffects

/-! # Channel requests keep the order of the layout

The requests that change a guild's channels, one after the other. Each keeps the order of the layout,
except the deletion of a category whose channels stand behind another category.
-/

namespace Cordis.Guild

open GuildTables GuildTables Channel Go List

section Tables

variable {tables after : GuildTables} {guildID otherID : ℤ}

variable {channel : Channel}

theorem mem_layout : channel ∈ tables.layout guildID ↔
    channel ∈ tables.channels ∧ channel.guildID = guildID ∧ channel.deleted = false := by
  simp [layout]

theorem layout_of_channels (same : after.channels = tables.channels) : after.layout guildID = tables.layout guildID := by
  rw [layout, same, layout]

theorem perm_listGuildChannels (tables : GuildTables) (guildID : ℤ) :
    (tables.listGuildChannels guildID).Perm (tables.layout guildID) :=
  perm_orderBy ..

/-- A change of rows that stay in their guild and live changes the layout row by row. -/
theorem layout_updateRows {selected : Channel → Bool} {change : Channel → Channel}
    (keeps : ∀ row, (change row).guildID = row.guildID ∧ (change row).deleted = row.deleted)
    (changed : after.channels = updateRows tables.channels selected change) :
    after.layout guildID = (tables.layout guildID).map fun row => if selected row then change row else row := by
  rw [layout, changed, updateRows, filter_map]
  congr 1
  refine filter_congr fun row _ => ?_
  simp only [Function.comp_apply]
  split_ifs
  · rw [(keeps row).1, (keeps row).2]
  · rfl

theorem layout_append (joined : after.channels = tables.channels ++ [channel])
    (inGuild : channel.guildID = guildID) (live : channel.deleted = false) :
    after.layout guildID = tables.layout guildID ++ [channel] := by
  simp [layout, joined, inGuild, live]

theorem layout_append_of_ne (joined : after.channels = tables.channels ++ [channel])
    (other : guildID ≠ channel.guildID) : after.layout guildID = tables.layout guildID := by
  simp [layout, joined, other.symm]

theorem place_keeps (updates : List PositionUpdate) (channel : Channel) :
    (place updates channel).guildID = channel.guildID ∧ (place updates channel).deleted = channel.deleted := by
  unfold place
  cases placement updates channel.id <;> exact ⟨rfl, rfl⟩

/-- The updates place the live channels of their guild. -/
theorem layout_positions (tables : GuildTables) (guildID : ℤ) (updates : List PositionUpdate) :
    (tables.updateGuildChannelPositions guildID updates).layout guildID = (tables.layout guildID).map (place updates) := by
  rw [layout_updateRows (place_keeps updates) rfl]
  refine map_congr_left fun channel member => ?_
  obtain ⟨_, inGuild, live⟩ := mem_layout.mp member
  split_ifs with placed
  · rfl
  · simp only [Places, inGuild, live, true_and, decide_eq_true_eq, Bool.not_eq_true, Option.isSome_eq_false_iff,
      Option.isNone_iff_eq_none] at placed
    rw [place, placed, Option.elim_none]

theorem layout_positions_of_ne (other : otherID ≠ guildID) (updates : List PositionUpdate) :
    (tables.updateGuildChannelPositions guildID updates).layout otherID = tables.layout otherID := by
  rw [layout_updateRows (place_keeps updates) rfl]
  refine (map_congr_left fun channel member => ?_).trans (map_id _)
  obtain ⟨_, inGuild, _⟩ := mem_layout.mp member
  rw [if_neg]
  · rfl
  · simp [Places, inGuild, other]

theorem channels_advance {expected : ℤ} (advanced : tables.advanceGuildChannelLayoutRevision guildID expected = .ok after) :
    after.channels = tables.channels := by
  unfold advanceGuildChannelLayoutRevision at advanced
  split at advanced
  · cases advanced
  · split_ifs at advanced
    cases advanced
    rfl

theorem mem_layout_of_found {channelID : ℤ} (loaded : found (tables.getGuildChannel channelID) = .ok channel) :
    channel ∈ tables.layout channel.guildID ∧ channel.id = channelID := by
  have loaded := found_eq_ok.mp loaded
  have row := find?_some loaded
  simp only [decide_eq_true_eq] at row
  exact ⟨mem_layout.mpr ⟨mem_of_find?_eq_some loaded, rfl, row.2⟩, row.1⟩

/-- A parent that passes is a live category of the guild. -/
theorem validateChannelParent_eq_ok {type : ChannelType} {parentID : ℤ} {done : Unit}
    (valid : validateChannelParent tables guildID type parentID = .ok done) (child : parentID ≠ 0) :
    type ≠ .category ∧ ∃ parent ∈ tables.layout guildID, parent.id = parentID ∧ parent.type = .category := by
  unfold validateChannelParent at valid
  rw [if_neg child] at valid
  obtain ⟨_, _, valid⟩ := bind_eq_ok.mp valid
  obtain ⟨_, notCategory, valid⟩ := bind_eq_ok.mp valid
  obtain ⟨parent, loaded, valid⟩ := bind_eq_ok.mp valid
  obtain ⟨member, id⟩ := mem_layout_of_found loaded
  obtain ⟨inGuild, category⟩ := require_eq_ok.mp valid
  rw [inGuild] at member
  exact ⟨require_eq_ok.mp notCategory, parent, member, id, category⟩

end Tables

/-- The ids of channels are unique, and the layout of the guild is in order. -/
structure LayoutSound (tables : GuildTables) (guildID : ℤ) : Prop where
  unique : (tables.channels.map Channel.id).Nodup
  ordered : LayoutOrdered (tables.layout guildID)

namespace LayoutSound

variable {limits : GuildLimits} {tables after : GuildTables} {guildID otherID : ℤ} {outcome : Outcome}

variable {channel : Channel} {actorUserID channelID parentID expected : ℤ}

variable (sound : LayoutSound tables guildID)

section

include sound

theorem of_channels (same : after.channels = tables.channels) : LayoutSound after guildID where
  unique := same ▸ sound.unique
  ordered := layout_of_channels same ▸ sound.ordered

theorem nodup : ((tables.layout otherID).map Channel.id).Nodup :=
  sound.unique.sublist (filter_sublist.map _)

theorem nodup_list : ((tables.listGuildChannels otherID).map Channel.id).Nodup :=
  ((perm_listGuildChannels tables otherID).map Channel.id).nodup_iff.mpr sound.nodup

/-- The channels are listed in groups. -/
theorem grouped_list : Grouped Channel.parentID (tables.listGuildChannels guildID) := by
  have members (channel : Channel) := (perm_listGuildChannels tables guildID).mem_iff (a := channel)
  refine Pairwise.imp_of_mem (fun {channel other} isOne isOther below behind => ?_)
    (pairwise_orderBy (fun channel : Channel => (channel.position : ℤ)) (fun channel => [channel.id]) _)
  by_contra before
  have first := sound.ordered.first other ((members _).mp isOther) channel ((members _).mp isOne) behind
    (Bool.eq_false_iff.mpr before)
  omega

/-- New numbers in a grouped order keep the layout in order. -/
theorem renumber {parentOf : Channel → ℤ} {ordered : List Channel}
    (perm : ordered.Perm (tables.listGuildChannels guildID)) (grouped : Grouped parentOf ordered)
    (parents : ∀ channel ∈ tables.layout guildID, parentOf channel ≠ 0 →
      ∃ parent ∈ tables.layout guildID, parent.id = parentOf channel ∧ parent.type = .category)
    (changed : after.channels = (tables.updateGuildChannelPositions guildID (orderUpdates parentOf ordered)).channels) :
    LayoutSound after guildID := by
  have perm := perm.trans (perm_listGuildChannels tables guildID)
  refine of_channels ⟨?_, ?_⟩ changed
  · rw [ids_positions]
    exact sound.unique
  · rw [layout_positions]
    refine ordered_orderUpdates (fun _ => perm.mem_iff) ((perm.map Channel.id).nodup_iff.mpr sound.nodup) grouped ?_
    intro channel listed child
    obtain ⟨parent, isParent, named⟩ := parents channel (perm.mem_iff.mp listed) child
    exact ⟨parent, perm.mem_iff.mpr isParent, named⟩

theorem positions_of_ne (other : guildID ≠ otherID) {updates : List PositionUpdate}
    (changed : after.channels = (tables.updateGuildChannelPositions otherID updates).channels) :
    LayoutSound after guildID := by
  refine of_channels ⟨?_, ?_⟩ changed
  · rw [ids_positions]
    exact sound.unique
  · rw [layout_positions_of_ne other]
    exact sound.ordered

end

section Create

theorem createGuildChannel_eq_ok (created : tables.createGuildChannel channel = .ok after) :
    channel.id ∉ tables.channels.map Channel.id ∧ after.channels = tables.channels ++ [channel] := by
  unfold GuildTables.createGuildChannel at created
  split_ifs at created with refused
  cases created
  exact ⟨fun taken => refused (.inr taken), rfl⟩

include sound

/-- The new channel joins the shifted ones. -/
theorem layoutOrdered_newChannelPlace {new : Channel} {type : ChannelType}
    (isType : new.type = type) (isParent : new.parentID = parentID)
    (position : new.position = (newChannelPlace (tables.listGuildChannels guildID) type parentID).1)
    (valid : validateChannelParent tables guildID type parentID = .ok ()) :
    LayoutOrdered ((tables.layout guildID).map
      (place (newChannelPlace (tables.listGuildChannels guildID) type parentID).2) ++ [new]) := by
  have perm := perm_listGuildChannels tables guildID
  have ordered : LayoutOrdered (tables.listGuildChannels guildID) := sound.ordered.of_mem fun _ => perm.mem_iff
  unfold newChannelPlace at position ⊢
  split_ifs at position ⊢ with first
  · have position : new.position = uncategorizedChannelInsertPosition (tables.listGuildChannels guildID) := position
    have joined := ordered.insert new (fun child => (child (isParent.trans first.2)).elim)
      (fun _ => position ▸ lt_uncategorizedChannelInsertPosition ordered)
      fun _ _ => position ▸ uncategorizedChannelInsertPosition_le
    refine joined.of_mem fun channel => ?_
    rw [mem_append, mem_append, ← position]
    refine or_congr_left ?_
    rw [mem_map, mem_map]
    refine exists_congr fun row => ?_
    rw [perm.mem_iff]
    refine and_congr_right fun member => ?_
    rw [place_shiftUpdates sound.nodup_list (perm.mem_iff.mpr member)]
  · have behind {row : Channel} (member : row ∈ tables.layout guildID) : row.position < new.position :=
      position ▸ lt_nextGuildChannelPosition (perm.mem_iff.mpr member)
    have same : (tables.layout guildID).map (place []) = (tables.layout guildID).map (Channel.shift new.position) :=
      map_congr_left fun row member => by rw [Channel.shift, if_neg (behind member).not_ge]; rfl
    rw [same]
    refine sound.ordered.insert new (fun child => ?_) (fun _ member _ => behind member) fun without => ?_
    · rw [isParent] at child ⊢
      exact (validateChannelParent_eq_ok valid child).2
    · rw [Uncategorized, isUncategorizedChannel, isType, isParent, decide_eq_true_eq] at without
      exact (first without.symm).elim

/-- Creation keeps the order. -/
theorem create {type : ChannelType}
    (created : createGuildChannel limits tables otherID actorUserID channelID type parentID expected = .ok outcome) :
    LayoutSound outcome.tables guildID := by
  simp only [createGuildChannel, bind_eq_ok] at created
  obtain ⟨_, _, _, _, _, _, _, _, _, _, _, _, _, valid, _, _, inserted, insertion, _, _, _, advance, created⟩ := created
  obtain ⟨fresh, joined⟩ := createGuildChannel_eq_ok insertion
  have changes : outcome.tables.channels = inserted.channels := by
    rw [tables_of_enqueueEvents created, channels_advance advance]
    rfl
  suffices kept : LayoutSound inserted guildID from kept.of_channels changes
  constructor
  · rw [joined, map_append, map_singleton]
    refine nodup_append.mpr ⟨?_, nodup_singleton _, ?_⟩
    · rw [ids_positions]
      exact sound.unique
    · intro id taken new isNew same
      rw [mem_singleton.mp isNew] at same
      exact fresh (same ▸ taken)
  · by_cases here : guildID = otherID
    · subst here
      rw [layout_append joined rfl rfl, layout_positions]
      exact layoutOrdered_newChannelPlace sound rfl rfl rfl valid
    · rw [layout_append_of_ne joined here, layout_positions_of_ne here]
      exact sound.ordered

end Create

section Move

include sound

/-- A move keeps the order. -/
theorem move {result : GuildTables × List Channel}
    (valid : validateChannelParent tables channel.guildID channel.type parentID = .ok ())
    (moved : moveChannel tables channel parentID expected = .ok result) : LayoutSound result.1 guildID := by
  obtain ⟨updates, computed, moved⟩ := bind_eq_ok.mp moved
  obtain ⟨_, _, moved⟩ := bind_eq_ok.mp moved
  obtain ⟨_, _, moved⟩ := bind_eq_ok.mp moved
  obtain ⟨changed, advance, rfl⟩ := map_eq_ok.mp moved
  have changes := channels_advance advance
  by_cases here : guildID = channel.guildID
  · subst here
    have category {row : Channel} (child : parentID ≠ 0) (member : row ∈ tables.layout channel.guildID)
        (id : row.id = parentID) : row.type = .category := by
      obtain ⟨_, parent, isParent, named, category⟩ := validateChannelParent_eq_ok valid child
      rw [inj_on_of_nodup_map sound.nodup member isParent (id.trans named.symm)]
      exact category
    obtain ⟨_, _, _, _, id, split, perm, placed, rfl⟩ := channelParentMoveUpdates_eq_ok sound.nodup_list computed
    have grouped := grouped_move id placed split sound.grouped_list fun child row listed _ =>
      category child ((perm_listGuildChannels ..).mem_iff.mp listed)
    refine sound.renumber perm grouped (fun row member child => ?_) changes
    unfold movedParent at child ⊢
    split_ifs at child ⊢ with moving
    · exact (validateChannelParent_eq_ok valid child).2
    · exact sound.ordered.parents row member child
  · exact sound.positions_of_ne here changes

theorem update {rename : Bool} {parentID : Option ℤ}
    (updated : updateGuildChannel tables channelID actorUserID rename parentID expected = .ok outcome) :
    LayoutSound outcome.tables guildID := by
  simp only [updateGuildChannel, bind_eq_ok] at updated
  obtain ⟨_, _, _, _, _, _, _, _, channel, _, _, _, _, _, _, _, _, valid, updated⟩ := updated
  split_ifs at updated with stays
  · rw [tables_of_enqueueEvents updated]
    exact sound
  · obtain ⟨result, moved, updated⟩ := bind_eq_ok.mp updated
    rw [tables_of_enqueueEvents updated]
    exact sound.move valid moved

end Move

section Reorder

variable {items : List ChannelPlacement}

theorem validateChannelPlacements_eq_ok {channelIDs : List ℤ} {done : Unit}
    (valid : validateChannelPlacements items channelIDs = .ok done) :
    (items.map ChannelPlacement.channelID).Nodup ∧ ∀ item ∈ items, item.channelID ∉ channelIDs := by
  induction items generalizing channelIDs with
  | nil => simp
  | cons item items ih =>
    obtain ⟨_, _, valid⟩ := bind_eq_ok.mp valid
    obtain ⟨_, once, valid⟩ := bind_eq_ok.mp valid
    obtain ⟨nodup, others⟩ := ih valid
    have once := require_eq_ok.mp once
    simp only [map_cons, nodup_cons, mem_map, not_exists, not_and, forall_mem_cons]
    refine ⟨⟨fun other later same => others other later (same ▸ mem_cons_self), nodup⟩, once, ?_⟩
    exact fun other later => fun taken => others other later (mem_cons_of_mem _ taken)

/-- A requested parent is the channel's own or a live category. -/
theorem requestedParent_eq_ok {channels : List Channel} {item : ChannelPlacement} {result : ℤ × ℤ}
    (requested : requestedParent tables guildID channels item = .ok result) :
    ∃ channel, channels.find? (fun channel => channel.id = item.channelID) = some channel ∧ result.1 = channel.id ∧
      (result.2 = channel.parentID ∨ validateChannelParent tables guildID channel.type result.2 = .ok ()) := by
  obtain ⟨channel, loaded, requested⟩ := bind_eq_ok.mp requested
  have loaded := found_eq_ok.mp loaded
  have id : channel.id = item.channelID := by simpa using find?_some loaded
  refine ⟨channel, loaded, ?_⟩
  cases parent : item.parentID with
  | none =>
    rw [parent] at requested
    cases requested
    exact ⟨id.symm, .inl rfl⟩
  | some parentID =>
    rw [parent] at requested
    obtain ⟨_, valid, requested⟩ := bind_eq_ok.mp requested
    cases requested
    exact ⟨id.symm, .inr valid⟩

include sound

/-- The parents of a reordering are live categories. -/
theorem resolvedChannelParentID_ne_zero {parentIDs : List (ℤ × ℤ)}
    (requested : items.mapM (requestedParent tables guildID (tables.listGuildChannels guildID)) = .ok parentIDs)
    (member : channel ∈ tables.layout guildID) (child : resolvedChannelParentID parentIDs channel ≠ 0) :
    ∃ parent ∈ tables.layout guildID, parent.id = resolvedChannelParentID parentIDs channel ∧ parent.type = .category := by
  unfold resolvedChannelParentID at child ⊢
  cases named : parentIDs.lookup channel.id with
  | none =>
    rw [named] at child
    exact sound.ordered.parents channel member child
  | some parentID =>
    rw [named, Option.getD_some] at child
    obtain ⟨_, _, split, _⟩ := lookup_eq_some_iff.mp named
    have listed : (channel.id, parentID) ∈ parentIDs := by simp [split]
    obtain ⟨item, _, asked⟩ := mem_of_mapM requested listed
    obtain ⟨row, loaded, id, allowed⟩ := requestedParent_eq_ok asked
    have isRow := (perm_listGuildChannels tables guildID).mem_iff.mp (mem_of_find?_eq_some loaded)
    obtain rfl := inj_on_of_nodup_map sound.nodup member isRow id
    rcases allowed with own | valid
    · have own : parentID = channel.parentID := own
      subst own
      exact sound.ordered.parents channel member child
    · exact (validateChannelParent_eq_ok valid child).2

theorem reorder (reordered : reorderGuildChannels tables otherID actorUserID items expected = .ok outcome) :
    LayoutSound outcome.tables guildID := by
  simp only [reorderGuildChannels, bind_eq_ok] at reordered
  obtain ⟨_, _, _, _, _, _, _, unique, _, _, _, _, _, _, parentIDs, requested, updates, normalized, reordered⟩ := reordered
  split_ifs at reordered with same
  · cases reordered
    exact sound
  · obtain ⟨_, _, reordered⟩ := bind_eq_ok.mp reordered
    obtain ⟨changed, advance, reordered⟩ := bind_eq_ok.mp reordered
    have changes := channels_advance advance
    rw [tables_of_enqueueEvents reordered]
    by_cases here : guildID = otherID
    · subst here
      have once : ((items.map fun item => (item.channelID, item.position.toNat)).map Prod.fst).Nodup := by
        rw [map_map]
        exact (validateChannelPlacements_eq_ok unique).1
      obtain ⟨ordered, perm, grouped, rfl⟩ := normalizeGuildChannelPlacements_eq_ok sound.nodup_list once normalized
      exact sound.renumber perm grouped (fun _ => sound.resolvedChannelParentID_ne_zero requested) changes
    · exact sound.positions_of_ne here changes

end Reorder

section Delete

theorem layout_detachChildren_of_ne (other : guildID ≠ channel.guildID) :
    (detachChildren tables channel).layout guildID = tables.layout guildID := by
  unfold detachChildren
  split_ifs
  · refine (layout_updateRows ?_ rfl).trans ((map_congr_left fun row isRow => ?_).trans (map_id _))
    · exact fun _ => ⟨rfl, rfl⟩
    obtain ⟨_, rowGuild, _⟩ := mem_layout.mp isRow
    rw [if_neg]
    · rfl
    · simp [rowGuild, other]
  · rfl

theorem ids_detachChildren (tables : GuildTables) (channel : Channel) :
    (detachChildren tables channel).channels.map Channel.id = tables.channels.map Channel.id := by
  unfold detachChildren
  split_ifs
  · refine map_updateRows ?_ tables.channels
    exact fun _ => rfl
  · rfl

theorem channels_deleteGuildChannel (deleted : tables.deleteGuildChannel channelID = .ok after) :
    after.channels = updateRows tables.channels (fun channel : Channel => !channel.deleted && channel.id = channelID)
      fun channel => { channel with deleted := true } := by
  obtain ⟨_, _, rfl⟩ := map_eq_ok.mp deleted
  rfl

theorem layout_deleteGuildChannel (deleted : tables.deleteGuildChannel channelID = .ok after) :
    after.layout guildID = (tables.layout guildID).filter fun channel => channel.id ≠ channelID := by
  rw [layout, channels_deleteGuildChannel deleted, updateRows, filter_map, layout,
    filter_filter]
  refine (map_congr_left fun row isRow => ?_).trans ((map_id _).trans (filter_congr fun row _ => ?_))
  · have kept := of_mem_filter isRow
    simp only [Function.comp_apply, decide_eq_true_eq] at kept
    split_ifs at kept ⊢ with gone
    · cases kept.2
    · rfl
  · simp only [Function.comp_apply]
    split_ifs with gone
    · simp only [Bool.and_eq_true, Bool.not_eq_true', decide_eq_true_eq] at gone
      simp [gone]
    · simp only [Bool.and_eq_true, Bool.not_eq_true', decide_eq_true_eq, not_and] at gone
      by_cases live : row.deleted = false
      · simp [live, gone live]
      · simp [live]

include sound

/-- The channels in a channel are detached; if it is no category there are none. -/
theorem layout_detachChildren (member : channel ∈ tables.layout guildID) (known : 0 < channel.id) :
    (detachChildren tables channel).layout guildID = (tables.layout guildID).map (detach channel.id) := by
  obtain ⟨_, inGuild, _⟩ := mem_layout.mp member
  unfold detachChildren
  split_ifs with category
  · refine (layout_updateRows ?_ rfl).trans (map_congr_left fun row isRow => ?_)
    · exact fun _ => ⟨rfl, rfl⟩
    obtain ⟨_, rowGuild, live⟩ := mem_layout.mp isRow
    simp [inGuild, rowGuild, live, detach]
  · refine ((map_congr_left fun row isRow => ?_).trans (map_id _)).symm
    refine if_neg fun inside => category ?_
    obtain ⟨parent, isParent, named, type⟩ := sound.ordered.parents row isRow (by omega)
    rw [← inj_on_of_nodup_map sound.nodup isParent member (named.trans inside)]
    exact type

/-- Deletion takes the channel from its guild's layout and detaches the channels in it. -/
theorem delete (inOrder : ∀ channel ∈ tables.layout guildID, channel.id = channelID → channel.type = .category →
      DetachesInOrder (tables.layout guildID) channelID)
    (deleted : deleteGuildChannel tables channelID actorUserID expected = .ok outcome) :
    LayoutSound outcome.tables guildID := by
  simp only [deleteGuildChannel, bind_eq_ok] at deleted
  obtain ⟨_, valid, _, _, channel, loaded, _, _, _, _, _, _, gone, deletion, _, advance, deleted⟩ := deleted
  obtain ⟨member, id⟩ := mem_layout_of_found loaded
  obtain ⟨_, positive, _⟩ := bind_eq_ok.mp valid
  have positive : 0 < channel.id := id ▸ require_eq_ok.mp positive
  have changes : outcome.tables.channels = gone.channels := by
    rw [tables_of_enqueueEvents deleted, channels_advance advance]
  suffices kept : LayoutSound gone guildID from kept.of_channels changes
  constructor
  · rw [channels_deleteGuildChannel deletion, map_updateRows]
    · exact (ids_detachChildren tables channel).symm ▸ sound.unique
    · exact fun _ => rfl
  · have detached : ((detachChildren tables channel).deleteGuildChannelPermissionOverwrites channel.id).layout guildID =
        (detachChildren tables channel).layout guildID := layout_of_channels rfl
    rw [layout_deleteGuildChannel deletion, detached]
    by_cases here : guildID = channel.guildID
    · rw [← here] at member
      rw [sound.layout_detachChildren member positive, filter_map]
      have same : ((fun row : Channel => decide (row.id ≠ channel.id)) ∘ detach channel.id) =
          fun row => decide (row.id ≠ channel.id) := by
        funext row
        simp [id_detach]
      rw [same]
      refine sound.ordered.remove fun child isChild inside => ?_
      obtain ⟨parent, isParent, named, category⟩ := sound.ordered.parents child isChild (by omega)
      rw [inj_on_of_nodup_map sound.nodup isParent member (named.trans inside)] at category
      exact (id ▸ inOrder channel member id category : DetachesInOrder _ _) child isChild inside
    · rw [layout_detachChildren_of_ne here, filter_eq_self.mpr]
      · exact sound.ordered
      · intro row isRow
        obtain ⟨stored, rowGuild, _⟩ := mem_layout.mp isRow
        simp only [decide_eq_true_eq]
        intro same
        refine here ?_
        rw [← rowGuild, inj_on_of_nodup_map sound.unique stored (mem_layout.mp member).1 same]

end Delete

end LayoutSound

section Runs

/-- The requests that change the channels of guilds. -/
inductive LayoutRequest where
  | create (guildID actorUserID channelID : ℤ) (type : ChannelType) (parentID expected : ℤ)
  | update (channelID actorUserID : ℤ) (rename : Bool) (parentID : Option ℤ) (expected : ℤ)
  | reorder (guildID actorUserID : ℤ) (items : List ChannelPlacement) (expected : ℤ)
  | delete (channelID actorUserID expected : ℤ)

def LayoutRequest.serve (limits : GuildLimits) (tables : GuildTables) : LayoutRequest → Except GuildError Outcome
  | .create guildID actorUserID channelID type parentID expected =>
    createGuildChannel limits tables guildID actorUserID channelID type parentID expected
  | .update channelID actorUserID rename parentID expected =>
    updateGuildChannel tables channelID actorUserID rename parentID expected
  | .reorder guildID actorUserID items expected =>
    reorderGuildChannels tables guildID actorUserID items expected
  | .delete channelID actorUserID expected => deleteGuildChannel tables channelID actorUserID expected

/-- The column of positions has 32 bits; a number that overflows is negative and fails its check. -/
def GuildTables.PositionsFit (tables : GuildTables) : Prop := ∀ channel ∈ tables.channels, channel.position ≤ maxInt32
deriving Decidable

/-- Serve one request after the other; one that fails changes nothing. -/
def layoutMachine (limits : GuildLimits) : Machine GuildTables LayoutRequest :=
  .total fun tables request => (request.serve limits tables).toOption.elim tables fun outcome =>
    if outcome.tables.PositionsFit then outcome.tables else tables

/-- A category of the guild is deleted only when its channels stand before the other categories. -/
def DeletesInOrder (guildID : ℤ) (tables : GuildTables) : LayoutRequest → Prop
  | .delete channelID _ _ =>
    ∀ channel ∈ tables.layout guildID, channel.id = channelID → channel.type = .category →
      DetachesInOrder (tables.layout guildID) channelID
  | .create .. | .update .. | .reorder .. => True

instance (guildID : ℤ) (tables : GuildTables) : ∀ request, Decidable (DeletesInOrder guildID tables request)
  | .delete channelID _ _ => inferInstanceAs (Decidable (∀ channel ∈ tables.layout guildID, channel.id = channelID →
      channel.type = .category → DetachesInOrder (tables.layout guildID) channelID))
  | .create .. | .update .. | .reorder .. => isTrue trivial

variable {limits : GuildLimits} {tables : GuildTables} {guildID : ℤ} {request : LayoutRequest}

theorem LayoutSound.serve
    {outcome : Outcome} (sound : LayoutSound tables guildID) (inOrder : DeletesInOrder guildID tables request)
    (served : request.serve limits tables = .ok outcome) : LayoutSound outcome.tables guildID := by
  cases request with
  | create => exact sound.create served
  | update => exact sound.update served
  | reorder => exact sound.reorder served
  | delete => exact sound.delete inOrder served

theorem LayoutSound.step {next : GuildTables}
    (sound : LayoutSound tables guildID) (inOrder : DeletesInOrder guildID tables request)
    (step : (layoutMachine limits).step tables request = some next) : LayoutSound next guildID := by
  cases step
  change LayoutSound ((request.serve limits tables).toOption.elim tables fun outcome =>
    if outcome.tables.PositionsFit then outcome.tables else tables) guildID
  cases served : request.serve limits tables with
  | error => exact sound
  | ok outcome =>
    change LayoutSound (if outcome.tables.PositionsFit then outcome.tables else tables) guildID
    split_ifs
    · exact sound.serve inOrder served
    · exact sound

/-- From an empty guild on, as long as the channels of a deleted category stand before the other
categories, the layout is in order. -/
theorem channel_layout_ordered {limits : GuildLimits} {tables final : GuildTables} {guildID : ℤ}
    {requests : List LayoutRequest} (unique : (tables.channels.map Channel.id).Nodup)
    (empty : tables.layout guildID = []) (along : (layoutMachine limits).Along (DeletesInOrder guildID) tables requests)
    (run : (layoutMachine limits).run tables requests = some final) : LayoutOrdered (final.layout guildID) := by
  have start : LayoutSound tables guildID := by
    refine ⟨unique, ?_⟩
    rw [empty]
    constructor <;> simp
  have sound : LayoutSound final guildID :=
    Machine.invariant_along (fun _ _ _ sound inOrder step => LayoutSound.step sound inOrder step) run along start
  exact sound.ordered

/-- A guild without channels. -/
def emptyGuild : GuildTables := { guilds := [{ id := 10, ownerID := 1 }], members := [⟨10, 1, false⟩] }

def keptLayout : List LayoutRequest :=
  [.create 10 1 20 .category 0 1, .create 10 1 21 .text 20 2,
    .create 10 1 30 .category 0 3, .create 10 1 40 .text 0 4,
    .update 40 1 false (some 30) 5, .reorder 10 1 [⟨40, 0, some 0⟩, ⟨30, 3, none⟩] 6,
    .delete 20 1 7]

theorem keptLayout_ordered : ∃ final, (layoutMachine {}).run emptyGuild keptLayout = some final ∧
    (final.layout 10).map (fun channel => (channel.id, channel.position, channel.parentID)) =
      [(21, 2, 0), (30, 3, 0), (40, 0, 0)] ∧ LayoutOrdered (final.layout 10) := by
  refine Machine.exists_run rfl fun run => ⟨by decide, ?_⟩
  exact channel_layout_ordered (by decide) rfl (by decide) run

/-- Two categories, a channel in the first, and the deletion of the first. -/
def brokenLayout : List LayoutRequest :=
  [.create 10 1 20 .category 0 1, .create 10 1 30 .category 0 2,
    .create 10 1 21 .text 20 3, .delete 20 1 4]

/-- The channel of the deleted category stands behind the other category. -/
theorem detached_channel_behind_category : ∃ final, (layoutMachine {}).run emptyGuild brokenLayout = some final ∧
    (final.layout 10).map (fun channel => (channel.id, channel.type, channel.position, channel.parentID)) =
      [(30, .category, 1, 0), (21, .text, 2, 0)] ∧ ¬ LayoutOrdered (final.layout 10) := by
  refine ⟨_, rfl, by decide, fun ordered => ?_⟩
  have first := ordered.first ⟨21, 10, .text, 2, 0, false⟩ (by decide) ⟨30, 10, .category, 1, 0, false⟩
    (by decide) rfl rfl
  exact absurd first (by decide)

end Runs

end Cordis.Guild
