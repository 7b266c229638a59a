import Cordis.Guild.Discipline

/-! # What the statements of a transaction read and write

For each table, which changes a statement can make to it, and what they rest on. An invariant of the
tables is kept by a statement if every single change of it keeps the invariant, so the results here are
about members of the list of changes.
-/

namespace Cordis.Guild

open RowTable GuildDatabase List Option

namespace GuildDatabase

variable {db next : GuildDatabase} {reader : Option ℕ} {tx : ℕ} {guildID userID roleID : ℤ}

/-- The reader sees the user as a member. -/
def Active (db : GuildDatabase) (reader : Option ℕ) (guildID userID : ℤ) : Prop :=
  db.members.Shows reader (guildID, userID) fun member => member.deleted = false

section View

theorem isMember_view : (db.view reader).isMember guildID userID = true ↔ db.Active reader guildID userID := by
  simp only [GuildTables.isMember, view, List.any_eq_true, decide_eq_true_eq, mem_rows]
  constructor
  · rintro ⟨member, found, rfl, rfl, live⟩
    exact ⟨member, found, live⟩
  · rintro ⟨member, found, live⟩
    have key := key_of_find found
    simp only [Member.key, Prod.mk.injEq] at key
    obtain ⟨rfl, rfl⟩ := key
    exact ⟨member, found, rfl, rfl, live⟩

theorem of_getGuildForMember {guild : GuildRow} (loaded : (db.view reader).getGuildForMember guildID userID = some guild) :
    db.guilds.find reader guildID = some guild ∧ db.Active reader guildID userID := by
  have member := mem_of_find?_eq_some loaded
  have found := find?_some loaded
  simp only [view, mem_rows] at member
  simp only [decide_eq_true_eq] at found
  obtain ⟨rfl, _, isMember⟩ := found
  exact ⟨member, isMember_view.mp isMember⟩

theorem active_of_getGuildMember {member : Member} (loaded : (db.view reader).getGuildMember guildID userID = some member) :
    db.Active reader guildID userID := by
  refine isMember_view.mp (any_eq_true.mpr ⟨member, mem_of_find?_eq_some loaded, ?_⟩)
  have found := find?_some loaded
  exact found

theorem of_getGuildRole {role : Role} (loaded : (db.view reader).getGuildRole guildID roleID = some role) :
    db.roles.find reader roleID = some role ∧ role.guildID = guildID ∧ role.deleted = false := by
  have member := mem_of_find?_eq_some loaded
  have found := find?_some loaded
  simp only [view, mem_rows] at member
  simp only [decide_eq_true_eq] at found
  obtain ⟨rfl, rfl, live⟩ := found
  exact ⟨member, rfl, live⟩

theorem mem_view_memberRoles {assignment : MemberRole} :
    assignment ∈ (db.view reader).memberRoles ↔ db.memberRoles.find reader assignment = some assignment :=
  mem_rows

theorem mem_view_bans {ban : Ban} : ban ∈ (db.view reader).bans ↔ db.bans.find reader ban = some ban :=
  mem_rows

theorem mem_view_roles {role : Role} : role ∈ (db.view reader).roles ↔ db.roles.find reader role.id = some role :=
  mem_rows

theorem mem_view_overwrites {overwrite : Overwrite} :
    overwrite ∈ (db.view reader).overwrites ↔ db.overwrites.find reader overwrite.key = some overwrite :=
  mem_rows

end View

section Changes

variable {change : Change} {changes : List Change}

theorem apply_cons_eq_some :
    apply tx db (change :: changes) = some next ↔
      ∃ middle, db.applyChange tx change = some middle ∧ apply tx middle changes = some next :=
  bind_eq_some_iff

/-- What every change of a list keeps, the list keeps. -/
theorem apply_keeps (inv : GuildDatabase → Prop) (start : inv db) (applied : apply tx db changes = some next)
    (each : ∀ db change next, change ∈ changes → inv db → db.applyChange tx change = some next → inv next) : inv next := by
  induction changes generalizing db with
  | nil =>
    cases applied
    exact start
  | cons change changes ih =>
    obtain ⟨middle, first, rest⟩ := apply_cons_eq_some.mp applied
    refine ih (each db change middle mem_cons_self start first) rest fun db other next member => ?_
    exact each db other next (mem_cons_of_mem _ member)

/-- What one change of a list brings about and every change keeps holds after the list. -/
theorem apply_reaches (inv : GuildDatabase → Prop) (member : change ∈ changes)
    (applied : apply tx db changes = some next) (reaches : ∀ before after, applyChange before tx change = some after → inv after)
    (each : ∀ db change next, change ∈ changes → inv db → db.applyChange tx change = some next → inv next) : inv next := by
  induction changes generalizing db with
  | nil => cases member
  | cons first changes ih =>
    obtain ⟨middle, start, rest⟩ := apply_cons_eq_some.mp applied
    have later (db : GuildDatabase) (change : Change) (next : GuildDatabase) (member : change ∈ changes) :
        inv db → db.applyChange tx change = some next → inv next :=
      each db change next (mem_cons_of_mem _ member)
    rcases mem_cons.mp member with rfl | tail
    · exact apply_keeps inv (reaches db middle start) rest later
    · exact ih tail rest later

variable (db : GuildDatabase) (tx : ℕ) (next : GuildDatabase) in
/-- One change writes one table. -/
inductive Changed : Change → Prop where
  | guild {row} (writes : RowTable.Writes db.guilds next.guilds tx row.id (some row))
      (rest : next = { db with guilds := next.guilds }) : Changed (.guild row)
  | member {row} (writes : RowTable.Writes db.members next.members tx row.key (some row))
      (rest : next = { db with members := next.members }) : Changed (.member row)
  | role {row} (writes : RowTable.Writes db.roles next.roles tx row.id (some row))
      (rest : next = { db with roles := next.roles }) : Changed (.role row)
  | addMemberRole {assignment}
      (writes : RowTable.Writes db.memberRoles next.memberRoles tx assignment (some assignment))
      (rest : next = { db with memberRoles := next.memberRoles }) : Changed (.addMemberRole assignment)
  | dropMemberRole {assignment} (writes : RowTable.Writes db.memberRoles next.memberRoles tx assignment none)
      (rest : next = { db with memberRoles := next.memberRoles }) : Changed (.dropMemberRole assignment)
  | overwrite {row} (writes : RowTable.Writes db.overwrites next.overwrites tx row.key (some row))
      (rest : next = { db with overwrites := next.overwrites }) : Changed (.overwrite row)
  | dropOverwrite {key} (writes : RowTable.Writes db.overwrites next.overwrites tx key none)
      (rest : next = { db with overwrites := next.overwrites }) : Changed (.dropOverwrite key)
  | addBan {ban} (writes : RowTable.Writes db.bans next.bans tx ban (some ban))
      (rest : next = { db with bans := next.bans }) : Changed (.addBan ban)
  | dropBan {ban} (writes : RowTable.Writes db.bans next.bans tx ban none)
      (rest : next = { db with bans := next.bans }) : Changed (.dropBan ban)
  | invite {row} (rest : next = { db with invites := next.invites }) : Changed (.invite row)
  | quota {scope} (rest : next = { db with quotas := next.quotas }) : Changed (.quota scope)

theorem changed_of_applyChange (applied : db.applyChange tx change = some next) :
    Changed db tx next change := by
  cases change
  all_goals obtain ⟨_, written, rfl⟩ := map_eq_some_iff.mp applied
  case guild => exact .guild (writes_of_insert written) rfl
  case member => exact .member (writes_of_insert written) rfl
  case role => exact .role (writes_of_insert written) rfl
  case addMemberRole => exact .addMemberRole (writes_of_insert written) rfl
  case dropMemberRole => exact .dropMemberRole (writes_of_erase written) rfl
  case overwrite => exact .overwrite (writes_of_insert written) rfl
  case dropOverwrite => exact .dropOverwrite (writes_of_erase written) rfl
  case addBan => exact .addBan (writes_of_insert written) rfl
  case dropBan => exact .dropBan (writes_of_erase written) rfl
  case invite => exact .invite rfl
  case quota => exact .quota rfl

end Changes

end GuildDatabase

section Members

variable {tables : GuildTables} {w : Write}

variable {guildID : ℤ} {count : ℕ} {change : Change}

theorem mem_bumpGuild (member : change ∈ bumpGuild tables guildID count) :
    ∃ guild ∈ tables.guilds, guild.id = guildID ∧
      change = .guild { guild with accessRevision := guild.accessRevision + count } := by
  obtain ⟨guild, found, rfl⟩ := mem_map.mp member
  have look := mem_toList.mp found
  exact ⟨guild, mem_of_find?_eq_some look, by simpa using find?_some look, rfl⟩

variable (tables : GuildTables) in
/-- The changes that a statement can make. -/
inductive Makes : Write → Change → Prop where
  | bump {w : Write} {guild : GuildRow} {count : ℕ} (row : guild ∈ tables.guilds) :
      Makes w (.guild { guild with accessRevision := guild.accessRevision + count })
  | transfer {guildID ownerID newOwnerID : ℤ} {guild : GuildRow} (loaded : tables.getGuild guildID = some guild)
      (owner : guild.ownerID = ownerID) :
      Makes (.transferGuildOwnership guildID ownerID newOwnerID)
        (.guild { guild with ownerID := newOwnerID, accessRevision := guild.accessRevision + 1 })
  | createRole {role : Role} (fresh : role.id ∉ tables.roles.map Role.id) : Makes (.createGuildRole role) (.role role)
  | updateRole {guildID roleID : ℤ} {permissions : Option Permissions} {role : Role}
      (loaded : tables.getGuildRole guildID roleID = some role) :
      Makes (.updateGuildRole guildID roleID permissions)
        (.role { role with permissions := permissions.getD role.permissions })
  | moveRole {guildID : ℤ} {positions : List (ℤ × ℕ)} {seen : List ℤ} {role : Role} (row : role ∈ tables.roles)
      (moves : GuildTables.UpdatesPosition guildID positions role = true) :
      Makes (.updateGuildRolePositions guildID positions seen)
        (.role { role with position := (positions.lookup role.id).getD role.position })
  | deleteRole {guildID roleID : ℤ} {role : Role} (loaded : tables.getGuildRole guildID roleID = some role)
      (plain : role.isDefault = false) :
      Makes (.deleteGuildRole guildID roleID) (.role { role with deleted := true })
  | addMemberRole {assignment : MemberRole} : Makes (.addGuildMemberRole assignment) (.addMemberRole assignment)
  | dropMemberRole {seen : List MemberRole} {assignment : MemberRole} :
      Makes (.deleteMemberRoles seen) (.dropMemberRole assignment)
  | addOverwrite {overwrite : Overwrite} :
      Makes (.upsertGuildChannelPermissionOverwrite overwrite) (.overwrite overwrite)
  | replaceOverwrite {overwrite row : Overwrite} (present : row ∈ tables.overwrites) (same : row.key = overwrite.key) :
      Makes (.upsertGuildChannelPermissionOverwrite overwrite)
        (.overwrite { row with allow := overwrite.allow, deny := overwrite.deny })
  | dropOverwrite {seen : List (ℤ × AppliesTo × ℤ)} {key : ℤ × AppliesTo × ℤ} :
      Makes (.deleteOverwrites seen) (.dropOverwrite key)
  | joins {guildID userID : ℤ} : Makes (.createGuildMember guildID userID false) (.member ⟨guildID, userID, false⟩)
  | leaves {guildID userID : ℤ} (active : tables.isMember guildID userID = true) :
      Makes (.removeGuildMember guildID userID) (.member ⟨guildID, userID, true⟩)
  | addBan {ban : Ban} : Makes (.upsertGuildBan ban) (.addBan ban)
  | dropBan {ban : Ban} : Makes (.deleteGuildBan ban) (.dropBan ban)
  | invite {code : String} {now : ℤ} {row : Invite} : Makes (.consumeGuildInvite code now) (.invite row)
  | quota {scope : QuotaKind × ℤ} : Makes (.lockQuotaScope scope) (.quota scope)

theorem makes_bumpGuild (member : change ∈ bumpGuild tables guildID count) :
    Makes tables w change := by
  obtain ⟨guild, row, _, rfl⟩ := mem_bumpGuild member
  exact .bump row

theorem makes_bumpGuilds {guildIDs : List ℤ} (member : change ∈ bumpGuilds tables guildIDs) :
    Makes tables w change := by
  obtain ⟨guildID, _, bumped⟩ := mem_flatMap.mp member
  exact makes_bumpGuild bumped

/-- A changed row with the triggers of its guild. -/
theorem makes_row {row : Change} (makes : Makes tables w row)
    (member : change ∈ row :: bumpGuild tables guildID count) : Makes tables w change := by
  rcases mem_cons.mp member with rfl | bumped
  · exact makes
  · exact makes_bumpGuild bumped

theorem makes_of_mem (member : change ∈ (w.changes tables).1) : Makes tables w change := by
  cases w with simp only [Write.changes] at member
  | lockQuotaScope scope =>
    obtain rfl := mem_singleton.mp member
    exact .quota
  | createGuildRole role =>
    split_ifs at member with exists_
    · cases member
    · exact makes_row (.createRole exists_) member
  | updateGuildRole guildID roleID permissions =>
    split at member
    · cases member
    · next role loaded => exact makes_row (.updateRole loaded) member
  | updateGuildRolePositions guildID positions seen =>
    obtain ⟨role, moved, rfl⟩ := mem_map.mp member
    simp only [mem_filter, decide_eq_true_eq] at moved
    exact .moveRole moved.1 moved.2.2
  | deleteGuildRole guildID roleID =>
    split at member
    · cases member
    · next role loaded =>
      split_ifs at member with default
      · cases member
      · exact makes_row (.deleteRole loaded (by simpa using default)) member
  | addGuildMemberRole assignment =>
    split_ifs at member
    · cases member
    · exact makes_row .addMemberRole member
  | deleteMemberRoles seen =>
    rcases mem_append.mp member with dropped | bumped
    · obtain ⟨assignment, _, rfl⟩ := mem_map.mp dropped
      exact .dropMemberRole
    · exact makes_bumpGuilds bumped
  | upsertGuildChannelPermissionOverwrite overwrite =>
    split at member
    · exact makes_row .addOverwrite member
    · next row found =>
      exact makes_row (.replaceOverwrite (mem_of_find?_eq_some found) (by simpa using find?_some found)) member
  | deleteOverwrites seen =>
    rcases mem_append.mp member with dropped | bumped
    · obtain ⟨overwrite, _, rfl⟩ := mem_map.mp dropped
      exact .dropOverwrite
    · exact makes_bumpGuilds bumped
  | createGuildMember guildID userID seenBan =>
    split_ifs at member with refused
    · cases member
    · cases seenBan with
      | true => exact (refused (.inl rfl)).elim
      | false => exact makes_row .joins member
  | removeGuildMember guildID userID =>
    split_ifs at member with active
    · exact makes_row (.leaves active) member
    · cases member
  | upsertGuildBan ban =>
    obtain rfl := mem_singleton.mp member
    exact .addBan
  | deleteGuildBan ban =>
    split_ifs at member
    · obtain rfl := mem_singleton.mp member
      exact .dropBan
    · cases member
  | consumeGuildInvite code now =>
    split at member
    · cases member
    · split_ifs at member
      · obtain rfl := mem_singleton.mp member
        exact .invite
      · cases member
  | transferGuildOwnership guildID ownerID newOwnerID =>
    split at member
    · cases member
    · next guild loaded =>
      split_ifs at member with owner
      · obtain rfl := mem_singleton.mp member
        exact .transfer loaded owner
      · cases member

end Members

section Exec

variable {limits : GuildLimits} {db next : GuildDatabase} {tx : ℕ}

/-- A query changes nothing. -/
theorem exec_query_eq_some {q : Query} {reply : q.Reply} :
    db.exec limits tx (.query q) = some (next, reply) ↔ next = db ∧ reply = q.run limits (db.view (some tx)) := by
  constructor
  · intro ran
    cases ran
    exact ⟨rfl, rfl⟩
  · rintro ⟨rfl, rfl⟩
    rfl

theorem exec_write_eq_some {w : Write} {reply : w.Reply} (ran : db.exec limits tx (.write w) = some (next, reply)) :
    apply tx db (w.changes (db.view (some tx))).1 = some next ∧
      reply = (w.changes (db.view (some tx))).2 := by
  obtain ⟨_, applied, same⟩ := map_eq_some_iff.mp ran
  cases same
  exact ⟨applied, rfl⟩

/-- If every change that a statement can make is a step of the table, its execution is one. -/
theorem steps_exec {Key Row : Type} {keyOf : Row → Key} {writes : Key → Option Row → Prop}
    (table : GuildDatabase → RowTable ℕ keyOf) {statement : Statement} {reply : statement.Reply}
    (ran : db.exec limits tx statement = some (next, reply))
    (each : ∀ w, statement = .write w → ∀ middle change after, Makes (db.view (some tx)) w change →
      Steps writes tx (table db) (table middle) → Changed middle tx after change →
      Steps writes tx (table db) (table after)) : Steps writes tx (table db) (table next) := by
  cases statement with
  | query q =>
    obtain ⟨rfl, _⟩ := exec_query_eq_some.mp ran
    exact .refl
  | write w =>
    obtain ⟨applied, _⟩ := exec_write_eq_some ran
    refine apply_keeps (fun after => Steps writes tx (table db) (table after)) .refl applied ?_
    intro middle change after member kept changed
    exact each w rfl middle change after (makes_of_mem member) kept (changed_of_applyChange changed)

end Exec

end Cordis.Guild
