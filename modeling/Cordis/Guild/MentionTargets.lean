import Cordis.Cursor.Codec
import Cordis.Cursor.Keyset
import Cordis.Guild.VisibilityAgreement
import Mathlib.Logic.Equiv.List

/-! # The targets of a mention

The members that a message reaches with its role and everyone mentions are listed in pages. A page takes
the next candidates by user id, keeps those who can view the channel, and its cursor goes on behind the
last candidate, kept or not. Candidates for roles come from the assignments alone. The default role has
none: everybody holds it, and a mention of it alone finds nobody.
-/

namespace Cordis.Guild

open Go Cursor GuildTables List

section Requests

structure MentionTargetsPayload where
  guildID : ℤ
  channelID : ℤ
  roleIDs : List ℤ
  everyone : Bool
  afterUserID : ℤ
deriving DecidableEq, Repr

structure ListGuildMentionTargetsRequest where
  guildID : ℤ
  actorUserID : ℤ
  channelID : ℤ
  roleIDs : List ℤ := []
  everyone : Bool := false
  cursor : Option (List Char) := none
  limit : ℤ := 0
deriving DecidableEq, Repr

structure ListGuildMentionTargetsResponse where
  userIDs : List ℤ
  nextCursor : Option (List Char)
deriving DecidableEq, Repr

def defaultMentionTargetsLimit : ℕ := 100

def maxMentionTargetsLimit : ℕ := 1000

/-- The loop over the role ids, with those that came before. -/
def checkMentionRoleIDs (seen : List ℤ) : List ℤ → Except GuildError Unit
  | [] => .ok ()
  | roleID :: roleIDs => do
    require (0 < roleID) (.invalidRequest "role id must be positive")
    require (roleID ∉ seen) (.invalidRequest "role ids must be unique")
    checkMentionRoleIDs (roleID :: seen) roleIDs

def normalizeMentionRoleIDs (roleIDs : List ℤ) : Except GuildError (List ℤ) := do
  checkMentionRoleIDs [] roleIDs
  return roleIDs.insertionSort (· ≤ ·)

def normalizeMentionTargetsLimit (value : ℤ) : Except GuildError ℕ :=
  if value = 0 then .ok defaultMentionTargetsLimit
  else do
    require (0 ≤ value ∧ value ≤ maxMentionTargetsLimit) (.invalidRequest "limit is out of range")
    return value.toNat

def readCursor (cursor : Option (List Char)) : Except GuildError (List Char) := do
  require (cursor ≠ some []) (.invalidRequest "cursor is invalid")
  return cursor.getD []

def mapCursorErr {α : Type} (decoded : Except CursorError α) : Except GuildError α :=
  decoded.mapError fun _ => .invalidRequest "cursor is invalid"

def kindGuildMentionTargets : List Char := "guild_mention_targets".toList

/-- Where the page starts; a cursor is for one request. -/
def decodeMentionTargetsCursor (codec : Codec MentionTargetsPayload) (token : List Char) (guildID channelID : ℤ)
    (roleIDs : List ℤ) (everyone : Bool) : Except GuildError ℤ := do
  let decoded ← mapCursorErr (codec.decode kindGuildMentionTargets token)
  require (∀ payload ∈ decoded, payload.guildID = guildID ∧ payload.channelID = channelID ∧ 0 < payload.afterUserID ∧
    payload.everyone = everyone ∧ payload.roleIDs = roleIDs) (.invalidRequest "cursor is invalid")
  return (decoded.map MentionTargetsPayload.afterUserID).getD 0

def setNextMentionTargetsCursor (codec : Codec MentionTargetsPayload) (hasMore : Bool) (afterUserID guildID channelID : ℤ)
    (roleIDs : List ℤ) (everyone : Bool) : Except GuildError (Option (List Char)) :=
  if !hasMore ∨ afterUserID ≤ 0 then .ok none
  else ((codec.encode kindGuildMentionTargets { guildID, channelID, roleIDs, everyone, afterUserID }).mapError
    fun _ => .internal).map some

end Requests

section Pages

namespace GuildTables

variable (tables : GuildTables)

def listGuildMemberIDsPage (guildID afterUserID : ℤ) (limit : ℕ) : List ℤ :=
  (orderBy (fun userID => [userID]) ((tables.members.filter fun member =>
    member.guildID = guildID ∧ member.deleted = false ∧ afterUserID < member.userID).map Member.userID)).take limit

/-- `SELECT DISTINCT`: a user may have several of the roles. -/
def listGuildRoleTargetIDsPage (guildID : ℤ) (roleIDs : List ℤ) (afterUserID : ℤ) (limit : ℕ) : List ℤ :=
  (orderBy (fun userID => [userID]) ((tables.memberRoles.filter fun assignment =>
    assignment.guildID = guildID ∧ tables.isMember guildID assignment.userID = true ∧ assignment.roleID ∈ roleIDs ∧
      afterUserID < assignment.userID).map MemberRole.userID).dedup).take limit

def mentionCandidatesPage (guildID : ℤ) (roleIDs : List ℤ) (everyone : Bool) (afterUserID : ℤ) (limit : ℕ) : List ℤ :=
  if everyone then tables.listGuildMemberIDsPage guildID afterUserID limit
  else tables.listGuildRoleTargetIDsPage guildID roleIDs afterUserID limit

/-- The users of the page, whether there are more, and the last candidate. -/
def pageMentionTargets (guild : GuildRow) (overwrites : List Overwrite) (guildID : ℤ) (roleIDs : List ℤ) (everyone : Bool)
    (afterUserID : ℤ) (limit : ℕ) : List ℤ × Bool × ℤ :=
  let candidates := tables.mentionCandidatesPage guildID roleIDs everyone afterUserID (limit + 1)
  let page := candidates.take limit
  (page.filter fun userID => canViewMentionChannel guild overwrites (tables.rolesByUser guildID page userID) userID,
    limit < candidates.length, page.getLastD 0)

end GuildTables

def listGuildMentionTargets (codec : Codec MentionTargetsPayload) (tables : GuildTables)
    (request : ListGuildMentionTargetsRequest) : Except GuildError ListGuildMentionTargetsResponse := do
  require (0 < request.guildID) (.invalidRequest "guild id is required")
  require (0 < request.actorUserID) (.invalidRequest "actor user id is required")
  require (0 < request.channelID) (.invalidRequest "channel id is required")
  let roleIDs ← normalizeMentionRoleIDs request.roleIDs
  require (request.everyone ∨ roleIDs ≠ []) (.invalidRequest "at least one mention source is required")
  let limit ← normalizeMentionTargetsLimit request.limit
  let token ← readCursor request.cursor
  let afterUserID ← decodeMentionTargetsCursor codec token request.guildID request.channelID roleIDs request.everyone
  let guild ← found (tables.getGuildForMember request.guildID request.actorUserID)
  let channel ← found (tables.getGuildChannel request.channelID)
  require (channel.guildID = request.guildID) (.invalidRequest "channel does not belong to guild")
  require (∀ roleID ∈ roleIDs, roleID ∈ (tables.listGuildRoles request.guildID).map Role.id)
    (.invalidRequest "role does not belong to guild")
  let (userIDs, hasMore, nextAfter) := tables.pageMentionTargets guild
    (tables.listGuildChannelPermissionOverwrites channel.id) request.guildID roleIDs request.everyone afterUserID limit
  let nextCursor ← setNextMentionTargetsCursor codec hasMore nextAfter request.guildID channel.id roleIDs request.everyone
  return { userIDs, nextCursor }

/-- Follow the cursors until none comes back, for so many calls at most, with a limit for each call. -/
def followMentionTargets (codec : Codec MentionTargetsPayload) (tables : GuildTables)
    (request : ListGuildMentionTargetsRequest) : ℕ → (ℕ → ℤ) → Option (List Char) → Option (List (List ℤ))
  | 0, _, _ => none
  | calls + 1, limits, cursor =>
    (listGuildMentionTargets codec tables { request with cursor, limit := limits 0 }).toOption.bind fun response =>
      response.nextCursor.elim (some [response.userIDs]) fun next =>
        (followMentionTargets codec tables request calls (fun call => limits (call + 1)) (some next)).map
          (response.userIDs :: ·)

end Pages

/-- The user holds the role: everybody holds the default role, whose id is that of the guild. -/
def GuildTables.HoldsRole (tables : GuildTables) (guildID userID roleID : ℤ) : Prop :=
  roleID = guildID ∨ ⟨guildID, userID, roleID⟩ ∈ tables.memberRoles

/-- An active member who can view the channel and is mentioned. -/
def GuildTables.MentionTarget (tables : GuildTables) (guild : GuildRow) (channelID : ℤ)
    (request : ListGuildMentionTargetsRequest) (userID : ℤ) : Prop :=
  tables.isMember guild.id userID = true ∧ sees (tables.effectivePermissions guild userID channelID) = true ∧
    (request.everyone = true ∨ ∃ roleID ∈ request.roleIDs, tables.HoldsRole guild.id userID roleID)

/-- A request of a member of the guild for a channel and roles of it. -/
structure GuildTables.Answers (tables : GuildTables) (request : ListGuildMentionTargetsRequest) (guild : GuildRow)
    (channel : Channel) : Prop where
  stored : guild ∈ tables.guilds
  live : guild.deleted = false
  guildID : request.guildID = guild.id
  actor : tables.isMember guild.id request.actorUserID = true
  known : channel ∈ tables.channels
  present : channel.deleted = false
  here : channel.guildID = guild.id
  channelID : request.channelID = channel.id
  unique : request.roleIDs.Nodup
  positive : ∀ roleID ∈ request.roleIDs, 0 < roleID
  roles : ∀ roleID ∈ request.roleIDs, ∃ role ∈ tables.roles,
    role.id = roleID ∧ role.guildID = guild.id ∧ role.deleted = false
  source : request.everyone = true ∨ request.roleIDs ≠ []

section Candidates

variable {limits : GuildLimits} {tables : GuildTables} {guildID userID : ℤ} {roleIDs : List ℤ} {everyone : Bool}

/-- A member that the page's query may find. -/
def GuildTables.MentionCandidate (tables : GuildTables) (guildID : ℤ) (roleIDs : List ℤ) (everyone : Bool) (userID : ℤ) :
    Prop :=
  tables.isMember guildID userID = true ∧ (everyone = true ∨ ∃ roleID ∈ roleIDs, ⟨guildID, userID, roleID⟩ ∈ tables.memberRoles)

theorem ascending_orderBy {ids : List ℤ} (nodup : ids.Nodup) :
    (orderBy (fun id => [id]) ids).Pairwise (· < ·) := by
  have sorted := pairwise_orderBy (fun id : ℤ => id) (fun _ => []) ids
  refine sorted.imp₂ (fun a b below other => lt_of_le_of_ne below other) ?_
  exact (perm_orderBy _ ids).nodup_iff.mpr nodup

/-- The pages are cut from one ascending list. -/
theorem mentionCandidatesPage_eq (wf : tables.WellFormed limits) (guildID : ℤ) (roleIDs : List ℤ) (everyone : Bool) :
    ∃ candidates : List ℤ, candidates.Pairwise (· < ·) ∧
      (∀ userID, userID ∈ candidates ↔ tables.MentionCandidate guildID roleIDs everyone userID) ∧
      ∀ afterUserID limit, tables.mentionCandidatesPage guildID roleIDs everyone afterUserID limit =
        (behind candidates afterUserID).take limit := by
  suffices rows : ∃ page : ℤ → List ℤ, (∀ afterUserID, (page afterUserID).Nodup) ∧
      (∀ afterUserID userID, userID ∈ page afterUserID ↔
        afterUserID < userID ∧ tables.MentionCandidate guildID roleIDs everyone userID) ∧
      ∀ afterUserID limit, tables.mentionCandidatesPage guildID roleIDs everyone afterUserID limit =
        (orderBy (fun userID => [userID]) (page afterUserID)).take limit by
    obtain ⟨page, nodup, members, pages⟩ := rows
    refine ⟨orderBy (fun userID => [userID]) (page 0), ascending_orderBy (nodup 0), fun userID => ?_, fun afterUserID limit => ?_⟩
    · rw [mem_orderBy, members]
      exact ⟨And.right, fun candidate => ⟨wf.userID_pos candidate.1, candidate⟩⟩
    · rw [pages]
      congr 1
      refine (ascending_orderBy (nodup _)).sortedLT.eq_of_mem_iff
        (pairwise_behind (ascending_orderBy (nodup 0)) _).sortedLT fun userID => ?_
      simp only [behind, mem_orderBy, mem_filter, members, decide_eq_true_eq]
      exact ⟨fun found => ⟨⟨wf.userID_pos found.2.1, found.2⟩, found.1⟩, fun found => ⟨found.2, found.1.2⟩⟩
  cases everyone with
  | true =>
    refine ⟨fun afterUserID => (tables.members.filter fun member =>
      member.guildID = guildID ∧ member.deleted = false ∧ afterUserID < member.userID).map Member.userID, ?_, ?_, fun _ _ => rfl⟩
    · intro afterUserID
      have keys : ((tables.members.filter fun member => member.guildID = guildID ∧ member.deleted = false ∧
          afterUserID < member.userID).map fun member => (member.guildID, member.userID)).Nodup :=
        wf.members.sublist (filter_sublist.map _)
      refine Nodup.map_on ?_ (keys.of_map _)
      intro first isFirst second isSecond same
      refine inj_on_of_nodup_map keys isFirst isSecond ?_
      simp only [mem_filter, decide_eq_true_eq] at isFirst isSecond
      rw [isFirst.2.1, isSecond.2.1, same]
    · intro afterUserID userID
      simp only [mem_map, mem_filter, decide_eq_true_eq, MentionCandidate, true_or, and_true,
        WellFormed.isMember_iff]
      constructor
      · rintro ⟨row, ⟨stored, inGuild, live, later⟩, rfl⟩
        exact ⟨later, row, stored, inGuild, rfl, live⟩
      · rintro ⟨later, row, stored, inGuild, rfl, live⟩
        exact ⟨row, ⟨stored, inGuild, live, later⟩, rfl⟩
  | false =>
    refine ⟨fun afterUserID => ((tables.memberRoles.filter fun assignment =>
      assignment.guildID = guildID ∧ tables.isMember guildID assignment.userID = true ∧ assignment.roleID ∈ roleIDs ∧
        afterUserID < assignment.userID).map MemberRole.userID).dedup, fun _ => nodup_dedup _, ?_, fun _ _ => rfl⟩
    intro afterUserID userID
    simp only [mem_dedup, mem_map, mem_filter, decide_eq_true_eq, MentionCandidate,
      Bool.false_eq_true, false_or]
    constructor
    · rintro ⟨⟨_, _, roleID⟩, ⟨stored, rfl, member, asked, later⟩, rfl⟩
      exact ⟨later, member, roleID, asked, stored⟩
    · rintro ⟨later, member, roleID, asked, stored⟩
      exact ⟨_, ⟨stored, rfl, member, asked, later⟩, rfl⟩

end Candidates

section Calls

theorem checkMentionRoleIDs_eq_ok {seen roleIDs : List ℤ} (positive : ∀ roleID ∈ roleIDs, 0 < roleID) (unique : roleIDs.Nodup)
    (fresh : ∀ roleID ∈ roleIDs, roleID ∉ seen) : checkMentionRoleIDs seen roleIDs = .ok () := by
  induction roleIDs generalizing seen with
  | nil => rfl
  | cons roleID roleIDs ih =>
    obtain ⟨first, positive⟩ := forall_mem_cons.mp positive
    obtain ⟨new, fresh⟩ := forall_mem_cons.mp fresh
    obtain ⟨once, unique⟩ := nodup_cons.mp unique
    rw [checkMentionRoleIDs, require, require, if_pos first, if_pos new, ok_bind, ok_bind]
    refine ih positive unique fun other member => ?_
    rw [mem_cons, not_or]
    exact ⟨fun same => once (same ▸ member), fresh other member⟩

theorem normalizeMentionTargetsLimit_eq_ok {value : ℤ} (valid : 0 ≤ value ∧ value ≤ maxMentionTargetsLimit) :
    ∃ limit, 0 < limit ∧ normalizeMentionTargetsLimit value = .ok limit := by
  unfold normalizeMentionTargetsLimit
  split_ifs with default
  · exact ⟨_, by decide, rfl⟩
  · refine ⟨value.toNat, by omega, ?_⟩
    rw [require, if_pos valid]
    rfl

variable (codec : Codec MentionTargetsPayload) (request : ListGuildMentionTargetsRequest)

/-- The page that a cursor, or its absence, asks for starts behind the user. -/
def StartsBehind (cursor : Option (List Char)) (userID : ℤ) : Prop :=
  (readCursor cursor >>= fun token => decodeMentionTargetsCursor codec token request.guildID request.channelID
    (request.roleIDs.insertionSort (· ≤ ·)) request.everyone) = .ok userID

theorem startsBehind_none : StartsBehind codec request none 0 := by
  simp [StartsBehind, readCursor, require, decodeMentionTargetsCursor, Codec.decode, mapCursorErr, Except.mapError]

/-- The cursor of a page with more behind it starts there. -/
theorem setNextMentionTargetsCursor_eq_ok {userID : ℤ} (positive : 0 < userID) :
    ∃ token, setNextMentionTargetsCursor codec true userID request.guildID request.channelID
        (request.roleIDs.insertionSort (· ≤ ·)) request.everyone = .ok (some token) ∧
      StartsBehind codec request (some token) userID := by
  have kind : validateKind kindGuildMentionTargets = .ok () := by
    unfold validateKind kindGuildMentionTargets
    rw [require, if_pos (by decide)]
  cases encoded : codec.encode kindGuildMentionTargets
      ⟨request.guildID, request.channelID, request.roleIDs.insertionSort (· ≤ ·), request.everyone, userID⟩ with
  | error =>
    cases encoded
  | ok token =>
    have decoded := codec.decode_encode encoded
    refine ⟨token, ?_, ?_⟩
    · simp [setNextMentionTargetsCursor, encoded, positive, Except.mapError, Except.map]
    · have some : token ≠ [] := by
        rintro rfl
        simp [Codec.decode] at decoded
      simp [StartsBehind, readCursor, require, some, decodeMentionTargetsCursor, decoded, mapCursorErr, Except.mapError, positive]

variable {limits : GuildLimits} {tables : GuildTables} {request : ListGuildMentionTargetsRequest} {guild : GuildRow}
  {channel : Channel} {codec : Codec MentionTargetsPayload} {cursor : Option (List Char)} {afterUserID : ℤ}

/-- Those who can view the channel. -/
def GuildTables.viewers (tables : GuildTables) (guild : GuildRow) (channelID : ℤ) (userIDs : List ℤ) : List ℤ :=
  userIDs.filter fun userID => sees (tables.effectivePermissions guild userID channelID)

section Calls

variable (wf : tables.WellFormed limits) (answers : tables.Answers request guild channel)
  {candidates : List ℤ} (ascending : candidates.Pairwise (· < ·))
  (members : ∀ userID ∈ candidates, tables.isMember guild.id userID = true)
  (pages : ∀ afterUserID limit, tables.mentionCandidatesPage guild.id (request.roleIDs.insertionSort (· ≤ ·))
    request.everyone afterUserID limit = (behind candidates afterUserID).take limit)
  (starts : StartsBehind codec request cursor afterUserID)

include wf answers ascending members pages starts

/-- A call returns the viewers among the next candidates, and a cursor behind them if there are more. -/
theorem listGuildMentionTargets_eq_ok {value : ℤ} (valid : 0 ≤ value ∧ value ≤ maxMentionTargetsLimit) :
    ∃ page rest nextCursor, behind candidates afterUserID = page ++ rest ∧
      listGuildMentionTargets codec tables { request with cursor, limit := value } =
        .ok ⟨tables.viewers guild channel.id page, nextCursor⟩ ∧
      (nextCursor = none ∧ rest = [] ∨ ∃ token nextAfter, nextCursor = some token ∧ page ≠ [] ∧
        StartsBehind codec request nextCursor nextAfter ∧ behind candidates nextAfter = rest) := by
  obtain ⟨limit, positive, normalized⟩ := normalizeMentionTargetsLimit_eq_ok valid
  obtain ⟨token, read, decoded⟩ := bind_eq_ok.mp starts
  obtain ⟨page, isPage⟩ : ∃ page, page = (behind candidates afterUserID).take limit := ⟨_, rfl⟩
  have cut : ((behind candidates afterUserID).take (limit + 1)).take limit = page := by
    rw [take_take, Nat.min_eq_left (Nat.le_succ limit), isPage]
  have inGuild {userID : ℤ} (listed : userID ∈ page) : tables.isMember guild.id userID = true :=
    members userID (mem_of_mem_filter (mem_of_mem_take (isPage ▸ listed)))
  have viewers : page.filter (fun userID =>
      canViewMentionChannel guild (tables.listGuildChannelPermissionOverwrites channel.id)
        (tables.rolesByUser guild.id page userID) userID) = tables.viewers guild channel.id page :=
    filter_congr fun userID listed =>
      wf.canViewMentionChannel_agrees answers.stored answers.live (inGuild listed) listed
  -- Every check passes, so the answer is what the page and its cursor are.
  have answer (nextCursor : Option (List Char)) (next : setNextMentionTargetsCursor codec
      (decide (limit < ((behind candidates afterUserID).take (limit + 1)).length))
      (page.getLastD 0) request.guildID request.channelID (request.roleIDs.insertionSort (· ≤ ·)) request.everyone = .ok nextCursor) :
      listGuildMentionTargets codec tables { request with cursor, limit := value } =
        .ok ⟨tables.viewers guild channel.id page, nextCursor⟩ := by
    rw [answers.guildID, answers.channelID] at decoded next
    have roleIDs : normalizeMentionRoleIDs request.roleIDs = .ok (request.roleIDs.insertionSort (· ≤ ·)) := by
      rw [normalizeMentionRoleIDs, checkMentionRoleIDs_eq_ok answers.positive answers.unique (by simp)]
      rfl
    have source : request.everyone = true ∨ request.roleIDs.insertionSort (· ≤ ·) ≠ [] := by
      refine answers.source.imp_right fun some none => some ?_
      simpa [none] using (length_insertionSort (· ≤ ·) request.roleIDs).symm
    have roles : ∀ roleID ∈ request.roleIDs.insertionSort (· ≤ ·), roleID ∈ (tables.listGuildRoles guild.id).map Role.id := by
      intro roleID asked
      obtain ⟨role, stored, id, inGuild, live⟩ := answers.roles roleID ((mem_insertionSort _).mp asked)
      exact mem_map.mpr ⟨role, by simp [listGuildRoles, stored, inGuild, live], id⟩
    have loaded := wf.getGuildForMember_eq answers.stored answers.live answers.actor
    have channelLoaded := wf.getGuildChannel_eq answers.known answers.present
    simp only [listGuildMentionTargets, answers.guildID, answers.channelID, roleIDs, normalized, read, decoded, loaded,
      channelLoaded, require, if_pos (wf.guildID guild answers.stored), if_pos (wf.userID_pos answers.actor),
      if_pos (wf.channelID channel answers.known), if_pos source, if_pos answers.here, if_pos roles, ok_bind, found,
      pageMentionTargets, pages, cut, viewers, next]
    rfl
  have split : behind candidates afterUserID = page ++ (behind candidates afterUserID).drop limit := by
    rw [isPage, take_append_drop]
  refine ⟨page, (behind candidates afterUserID).drop limit, ?_⟩
  by_cases more : limit < (behind candidates afterUserID).length
  · have filled : page ≠ [] := by
      apply ne_nil_of_length_pos
      rw [isPage, length_take]
      omega
    have last : page.getLastD 0 = page.getLast filled := by
      rw [getLastD_eq_getLast?, getLast?_eq_some_getLast filled, Option.getD_some]
    have known := wf.userID_pos (inGuild (getLast_mem filled))
    obtain ⟨next, set, further⟩ := setNextMentionTargetsCursor_eq_ok codec request known
    refine ⟨some next, split, answer _ ?_, .inr ⟨next, _, rfl, filled, further, ?_⟩⟩
    · rw [last, ← set]
      congr 1
      simp [more]
    · exact behind_getLast ascending split filled
  · refine ⟨none, split, answer _ ?_, .inl ⟨rfl, drop_of_length_le (by omega)⟩⟩
    rw [setNextMentionTargetsCursor, if_pos]
    simp [more]

/-- The calls end, and their pages are the viewers among the candidates. -/
theorem followMentionTargets_eq_some {calls : ℕ} (enough : (behind candidates afterUserID).length < calls)
    {pageLimits : ℕ → ℤ} (valid : ∀ call, 0 ≤ pageLimits call ∧ pageLimits call ≤ maxMentionTargetsLimit) :
    ∃ userIDs, followMentionTargets codec tables request calls pageLimits cursor = some userIDs ∧
      userIDs.flatten = tables.viewers guild channel.id (behind candidates afterUserID) := by
  induction calls generalizing cursor afterUserID pageLimits with
  | zero => omega
  | succ calls ih =>
    obtain ⟨page, rest, nextCursor, split, answer, further⟩ :=
      listGuildMentionTargets_eq_ok wf answers ascending members pages starts (valid 0)
    rw [followMentionTargets, answer]
    rcases further with ⟨rfl, rfl⟩ | ⟨token, nextAfter, rfl, some, next, left⟩
    · refine ⟨_, rfl, ?_⟩
      rw [split, append_nil, flatten_singleton]
    · have shorter : (behind candidates nextAfter).length < calls := by
        have one := length_pos_of_ne_nil some
        rw [split, length_append] at enough
        rw [left]
        omega
      obtain ⟨userIDs, followed, same⟩ := ih next shorter fun call => valid (call + 1)
      refine ⟨_, congrArg (Option.map _) followed, ?_⟩
      rw [flatten_cons, same, left, split, viewers, viewers, viewers,
        filter_append]

end Calls

end Calls

/-- Every mention reaches whom it should by the assignments alone: everyone is mentioned, the default role
is not, or all who can view the channel have another of the roles. -/
def GuildTables.ReachedByAssignment (tables : GuildTables) (guild : GuildRow) (channelID : ℤ)
    (request : ListGuildMentionTargetsRequest) : Prop :=
  request.everyone = true ∨ guild.id ∉ request.roleIDs ∨ ∀ userID, tables.isMember guild.id userID = true →
    sees (tables.effectivePermissions guild userID channelID) = true →
      ∃ roleID ∈ request.roleIDs, ⟨guild.id, userID, roleID⟩ ∈ tables.memberRoles

theorem mem_targets_iff {tables : GuildTables} {guild : GuildRow} {channelID : ℤ} {request : ListGuildMentionTargetsRequest}
    {userIDs : List ℤ} (listed : ∀ userID, userID ∈ userIDs ↔
      tables.MentionCandidate guild.id request.roleIDs request.everyone userID ∧
        sees (tables.effectivePermissions guild userID channelID) = true) :
    (∀ userID, userID ∈ userIDs ↔ tables.MentionTarget guild channelID request userID) ↔
      tables.ReachedByAssignment guild channelID request := by
  simp only [listed, MentionCandidate, MentionTarget, ReachedByAssignment,
    HoldsRole]
  constructor
  · intro exact_
    by_contra unreached
    rw [not_or, not_or, not_not] at unreached
    obtain ⟨single, default, unreached⟩ := unreached
    refine unreached fun userID member views => ?_
    obtain ⟨⟨_, mentioned⟩, _⟩ := (exact_ userID).mpr ⟨member, views, .inr ⟨guild.id, default, .inl rfl⟩⟩
    exact mentioned.resolve_left single
  · intro reached userID
    constructor
    · rintro ⟨⟨member, mentioned⟩, views⟩
      refine ⟨member, views, mentioned.imp_right ?_⟩
      rintro ⟨roleID, asked, assigned⟩
      exact ⟨roleID, asked, .inr assigned⟩
    · rintro ⟨member, views, mentioned⟩
      refine ⟨⟨member, ?_⟩, views⟩
      rcases mentioned with everyone | ⟨roleID, asked, rfl | assigned⟩
      · exact .inl everyone
      · rcases reached with everyone | missing | reached
        · exact .inl everyone
        · exact (missing asked).elim
        · exact .inr (reached userID member views)
      · exact .inr ⟨roleID, asked, assigned⟩

/-- Whatever the limits of the pages are, following the cursors ends, and the pages are the ascending list
of the targets exactly when these are reached by assignments. -/
theorem mention_targets_listed {limits : GuildLimits} {tables : GuildTables} (wf : tables.WellFormed limits)
    {request : ListGuildMentionTargetsRequest} {guild : GuildRow} {channel : Channel}
    (answers : tables.Answers request guild channel) (codec : Codec MentionTargetsPayload) {pageLimits : ℕ → ℤ}
    (valid : ∀ call, 0 ≤ pageLimits call ∧ pageLimits call ≤ maxMentionTargetsLimit) :
    ∃ pages, followMentionTargets codec tables request (tables.members.length + 1) pageLimits none = some pages ∧
      (pages.flatten.Pairwise (· < ·) ∧
          (∀ userID, userID ∈ pages.flatten ↔ tables.MentionTarget guild channel.id request userID) ↔
        tables.ReachedByAssignment guild channel.id request) := by
  obtain ⟨candidates, ascending, members, pages⟩ := mentionCandidatesPage_eq wf guild.id
    (request.roleIDs.insertionSort (· ≤ ·)) request.everyone
  have all : behind candidates 0 = candidates := List.filter_eq_self.mpr fun userID member => by
    simpa using wf.userID_pos ((members userID).mp member).1
  have few : candidates.length ≤ tables.members.length := by
    have stored : candidates ⊆ tables.members.map Member.userID := by
      intro userID candidate
      obtain ⟨row, stored, _, same, _⟩ := GuildTables.WellFormed.isMember_iff.mp ((members userID).mp candidate).1
      exact List.mem_map.mpr ⟨row, stored, same⟩
    have distinct : candidates.Nodup := ascending.imp LT.lt.ne
    have bound := (distinct.subperm stored).length_le
    rwa [List.length_map] at bound
  have enough : (behind candidates 0).length < tables.members.length + 1 := by
    rw [all]
    omega
  obtain ⟨userIDs, followed, listed⟩ := followMentionTargets_eq_some wf answers ascending
    (fun userID candidate => ((members userID).mp candidate).1) pages (startsBehind_none codec request)
    enough valid
  rw [all] at listed
  refine ⟨userIDs, followed, ?_⟩
  have sorted : (tables.viewers guild channel.id candidates).Pairwise (· < ·) := ascending.filter _
  rw [listed, and_iff_right sorted]
  refine mem_targets_iff fun userID => ?_
  simp [GuildTables.viewers, members, GuildTables.MentionCandidate]

instance : Encodable MentionTargetsPayload :=
  Encodable.ofLeftInjection
    (fun payload => (payload.guildID, payload.channelID, payload.roleIDs, payload.everyone, payload.afterUserID))
    (fun fields => some ⟨fields.1, fields.2.1, fields.2.2.1, fields.2.2.2.1, fields.2.2.2.2⟩) fun _ => rfl

/-- Everyone who can view channel 9, one candidate after the other. -/
theorem everyone_listed : ∃ pages, followMentionTargets (.unary _) quietGuild
      { guildID := 7, actorUserID := 2, channelID := 9, everyone := true } 4 (fun _ => 1) none = some pages ∧
    pages.flatten.Pairwise (· < ·) ∧ ∀ userID, userID ∈ pages.flatten ↔ quietGuild.MentionTarget { id := 7, ownerID := 1 } 9
      { guildID := 7, actorUserID := 2, channelID := 9, everyone := true } userID := by
  have answers : quietGuild.Answers { guildID := 7, actorUserID := 2, channelID := 9, everyone := true }
      { id := 7, ownerID := 1 } { id := 9, guildID := 7 } := by
    constructor <;> decide
  have valid : ∀ call, 0 ≤ (fun _ : ℕ => (1 : ℤ)) call ∧ (fun _ : ℕ => (1 : ℤ)) call ≤ maxMentionTargetsLimit :=
    fun _ => ⟨Int.one_nonneg, by simp [maxMentionTargetsLimit]⟩
  obtain ⟨pages, followed, listed⟩ := mention_targets_listed quietGuild_wellFormed answers (.unary _) valid
  exact ⟨pages, followed, listed.mpr (.inl rfl)⟩

/-- The default role is mentioned, and nobody is found, though user 2 holds it and can view the channel. -/
theorem default_role_reaches_nobody :
    followMentionTargets (.unary _) quietGuild { guildID := 7, actorUserID := 2, channelID := 9, roleIDs := [7] } 4
        (fun _ => 0) none = some [[]] ∧
      quietGuild.MentionTarget { id := 7, ownerID := 1 } 9
        { guildID := 7, actorUserID := 2, channelID := 9, roleIDs := [7] } 2 := by
  refine ⟨by decide, by decide, by decide, .inr ⟨7, by decide, .inl rfl⟩⟩

end Cordis.Guild
