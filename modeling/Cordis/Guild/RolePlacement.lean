import Cordis.Guild.Discipline

/-! # How roles are given their positions

A new role is placed by its creation, above all others if the owner creates it and at a free place below
the creator otherwise; a reordering places the roles it names. Both look at a list of the guild's roles
and choose or check positions against it. Within the list they are right: a chosen position is free,
unless the list has a role at the highest position of 32 bits and the owner is to place one above it, and
the positions after a reordering are distinct.

What the list is worth by the time of the write is another matter. `PlacesAllowed` says what is in the
log of a transaction before it places roles; a creation lists them under the lock of the quota for roles.
-/

namespace Cordis.Guild

open Script List

section Positions

variable {roles : List Role}

theorem le_highestPosition (roles : List Role) (start : ℕ) :
    start ≤ roles.foldl (fun highest role => max highest role.position) start ∧
      ∀ role ∈ roles, role.position ≤ roles.foldl (fun highest role => max highest role.position) start := by
  induction roles generalizing start with
  | nil => simp
  | cons first rest ih =>
    obtain ⟨above, each⟩ := ih (max start first.position)
    refine ⟨le_trans (le_max_left ..) above, fun role member => ?_⟩
    rcases mem_cons.mp member with rfl | later
    · exact le_trans (le_max_right ..) above
    · exact each role later

/-- The highest position is that of a role, or zero. -/
theorem highestPosition_mem (roles : List Role) (start : ℕ) :
    roles.foldl (fun highest role => max highest role.position) start = start ∨
      ∃ role ∈ roles, role.position = roles.foldl (fun highest role => max highest role.position) start := by
  induction roles generalizing start with
  | nil => exact .inl rfl
  | cons first rest ih =>
    rcases ih (max start first.position) with same | ⟨role, member, same⟩
    · simp only [foldl_cons, same]
      rcases max_choice start first.position with left | right
      · exact .inl left
      · exact .inr ⟨first, mem_cons_self, right.symm⟩
    · exact .inr ⟨role, mem_cons_of_mem _ member, same⟩

theorem nextRolePosition_fresh (belowTop : ∀ role ∈ roles, role.position ≠ maxInt32) :
    0 < nextRolePosition roles ∧ ∀ role ∈ roles, role.position ≠ nextRolePosition roles := by
  have notTop : roles.foldl (fun highest role => max highest role.position) 0 ≠ maxInt32 := by
    rcases highestPosition_mem roles 0 with none | ⟨role, member, same⟩
    · rw [none]
      decide
    · exact same ▸ belowTop role member
  unfold nextRolePosition
  rw [if_neg notTop]
  refine ⟨Nat.succ_pos _, fun role member => ?_⟩
  have below := (le_highestPosition roles 0).2 role member
  omega

theorem nextManagedRolePosition_fresh {bound : ℕ} (positive : 0 < nextManagedRolePosition roles bound) :
    ∀ role ∈ roles, role.position ≠ nextManagedRolePosition roles bound := by
  induction bound with
  | zero => cases positive
  | succ bound ih =>
    unfold nextManagedRolePosition at positive ⊢
    split_ifs at positive ⊢ with used
    · exact ih positive
    · exact fun role member same => used (mem_map.mpr ⟨role, member, same⟩)

/-- A role is created at a free position of the list, unless the owner would have to go above the highest
one of 32 bits. -/
theorem newRolePosition_fresh {authority : MemberAuthority} {position : ℕ}
    (placed : newRolePosition authority roles = .ok position)
    (belowTop : authority.isOwner = true → ∀ role ∈ roles, role.position ≠ maxInt32) :
    0 < position ∧ ∀ role ∈ roles, role.position ≠ position := by
  unfold newRolePosition at placed
  split_ifs at placed with owner positive
  · cases placed
    exact nextRolePosition_fresh (belowTop owner)
  · cases placed
    exact ⟨positive, nextManagedRolePosition_fresh positive⟩

/-- The position of a role after a reordering. -/
def finalPosition (positions : List (ℤ × ℕ)) (role : Role) : ℕ := (positions.lookup role.id).getD role.position

variable {positions : List (ℤ × ℕ)} {done : Unit}

theorem checkFinalPositions_distinct {taken : List (ℕ × ℤ)}
    (valid : checkFinalPositions positions roles taken = .ok done) :
    (∀ role ∈ roles, role.isDefault = false → ∀ other ∈ taken.lookup (finalPosition positions role), other = role.id) ∧
      ∀ role ∈ roles, ∀ other ∈ roles, role.isDefault = false → other.isDefault = false →
        finalPosition positions role = finalPosition positions other → role.id = other.id := by
  induction roles generalizing taken with
  | nil => simp
  | cons first rest ih =>
    unfold checkFinalPositions at valid
    split_ifs at valid with default
    · obtain ⟨free, distinct⟩ := ih valid
      constructor
      · rintro role (_ | ⟨_, later⟩) plain
        · simp [default] at plain
        · exact free role later plain
      · rintro role (_ | ⟨_, member⟩) other (_ | ⟨_, also⟩) plain plainToo same
        · rfl
        · simp [default] at plain
        · simp [default] at plainToo
        · exact distinct role member other also plain plainToo same
    · obtain ⟨_, unused, valid⟩ := Go.bind_eq_ok.mp valid
      obtain ⟨free, distinct⟩ := ih valid
      have apart (role : Role) (member : role ∈ rest) (plain : role.isDefault = false)
          (same : finalPosition positions role = finalPosition positions first) : first.id = role.id := by
        refine free role member plain first.id ?_
        rw [same]
        exact Option.mem_def.mpr lookup_cons_self
      constructor
      · rintro role (_ | ⟨_, later⟩) plain other found
        · exact Go.require_eq_ok.mp unused other found
        · by_cases same : finalPosition positions role = finalPosition positions first
          · rw [← apart role later plain same]
            rw [same] at found
            exact Go.require_eq_ok.mp unused other found
          · refine free role later plain other ?_
            have differs : (finalPosition positions role == (positions.lookup first.id).getD first.position) = false :=
              beq_false_of_ne same
            rwa [lookup_cons, differs]
      · rintro role (_ | ⟨_, member⟩) other (_ | ⟨_, also⟩) plain plainToo same
        · rfl
        · exact apart other also plainToo same.symm
        · exact (apart role member plain same).symm
        · exact distinct role member other also plain plainToo same

/-- The requested positions are positive, and no role is named twice. -/
theorem validateRolePositions_eq_ok {roleIDs : List ℤ} {used : List ℕ}
    (valid : validateRolePositions positions roleIDs used = .ok done) :
    (∀ item ∈ positions, 0 < item.2) ∧ (positions.map Prod.fst).Nodup ∧ ∀ roleID ∈ roleIDs, roleID ∉ positions.map Prod.fst := by
  induction positions generalizing roleIDs used with
  | nil => simp
  | cons item rest ih =>
    obtain ⟨_, positive, valid⟩ := Go.bind_eq_ok.mp valid
    obtain ⟨_, fresh, valid⟩ := Go.bind_eq_ok.mp valid
    obtain ⟨_, _, valid⟩ := Go.bind_eq_ok.mp valid
    obtain ⟨each, nodup, apart⟩ := ih valid
    refine ⟨?_, nodup_cons.mpr ⟨apart item.1 mem_cons_self, nodup⟩, ?_⟩
    · rintro other (_ | ⟨_, later⟩)
      · exact (Go.require_eq_ok.mp positive).2
      · exact each other later
    · rintro roleID known (_ | ⟨_, later⟩)
      · exact Go.require_eq_ok.mp fresh known
      · exact apart roleID (mem_cons_of_mem _ known) later

end Positions

section Discipline

/-- The guild whose roles the request has listed, in order to place some of them. -/
def placing : GuildRequest → List Statement → List ℤ
  | .createRole guildID _ _ _, calls | .reorderRoles guildID _ _, calls =>
    if Statement.query (.listGuildRoles guildID) ∈ calls then [guildID] else []
  | _, _ => []

/-- The guild whose roles a reordering has listed. -/
def reordering : GuildRequest → List Statement → List ℤ
  | .reorderRoles guildID _ _, calls => if Statement.query (.listGuildRoles guildID) ∈ calls then [guildID] else []
  | _, _ => []

def Statement.WritesRoles : Statement → Bool
  | .write (.createGuildRole _) | .write (.updateGuildRole _ _ _) | .write (.updateGuildRolePositions _ _ _)
  | .write (.deleteGuildRole _ _) => true
  | _ => false

/-- A look that has found the user to be the owner of the guild. -/
def ownerRead (guildID userID : ℤ) : (statement : Statement) × statement.Reply → Bool
  | ⟨.query (.getGuildForMember readID memberID), some guild⟩ =>
      readID = guildID ∧ memberID = userID ∧ guild.ownerID = userID
  | _ => false

/-- The request is the creation of a role by the owner of the guild. -/
def ownerCreates : GuildRequest → StatementLog → Bool
  | .createRole guildID actor _ _, log => log.any (ownerRead guildID actor)
  | _, _ => false

def GuildRequest.Places : GuildRequest → Bool
  | .createRole _ _ _ _ | .reorderRoles _ _ _ => true
  | _ => false

variable (request : GuildRequest) (log : StatementLog)

/-- What the transaction has seen, and done, before it lists the roles and before it writes them. -/
def PlacesAllowed : Statement → Prop
  | .query (.listGuildRoles guildID) =>
      (∀ statement ∈ issued log, statement.WritesRoles = false) ∧
        ((∃ actor roleID permissions, request = .createRole guildID actor roleID permissions ∧
            Statement.write (.lockQuotaScope (.guildRoles, guildID)) ∈ issued log) ∨
          ∃ actor positions, request = .reorderRoles guildID actor positions)
  | .write (.createGuildRole role) =>
      (∀ statement ∈ issued log, statement.WritesRoles = false) ∧ role.isDefault = false ∧
        ∃ actor permissions authority roles earlier, request = .createRole role.guildID actor role.id permissions ∧
          (⟨.query (.listGuildRoles role.guildID), roles⟩ :: earlier : StatementLog) <:+ log ∧
          (authority.isOwner = true → ownerCreates request earlier = true) ∧
          newRolePosition authority roles = .ok role.position
  | .write (.updateGuildRolePositions guildID positions _) =>
      (∀ statement ∈ issued log, statement.WritesRoles = false) ∧
        ∃ actor roles, request = .reorderRoles guildID actor positions ∧
          ⟨.query (.listGuildRoles guildID), roles⟩ ∈ log ∧ validateRolePositions positions [] [] = .ok () ∧
          checkFinalPositions positions roles [] = .ok ()
  | .write (.updateGuildRole _ _ _) | .write (.deleteGuildRole _ _) => request.Places = false
  | _ => True

/-- A reordering returns only if it has moved every role that it names. -/
def PlacesAll : Prop :=
  ∀ guildID actor positions, request = .reorderRoles guildID actor positions →
    ∃ seen, ⟨.write (.updateGuildRolePositions guildID positions seen), positions.length⟩ ∈ log

end Discipline

section Handlers

/-- The statement neither lists the roles nor places them. -/
def Statement.Plain : Statement → Bool
  | .query (.listGuildRoles _) | .write (.createGuildRole _) | .write (.updateGuildRolePositions _ _ _) => false
  | _ => true

section Plain

theorem loadMemberAuthority_plain (guildID userID : ℤ) :
    (loadMemberAuthority guildID userID).Issues fun statement => statement.Plain = true := by
  refine .bind (.perform rfl) fun _ => .bind .lift fun guild => ?_
  split_ifs
  · exact .pure
  · exact .bind (.perform rfl) fun _ => .pure

theorem validateOverwriteAppliesTo_plain (authority : MemberAuthority) (guildID : ℤ) (appliesTo : AppliesTo)
    (appliesToID : ℤ) : (Transaction.validateOverwriteAppliesTo authority guildID appliesTo appliesToID).Issues
      fun statement => statement.Plain = true := by
  cases appliesTo with
  | role => exact .bind (.perform rfl) fun _ => .bind .lift fun role => .lift
  | member => exact .bind (loadMemberAuthority_plain ..) fun target => .lift

theorem departMember_plain (guildID userID : ℤ) :
    (Transaction.departMember guildID userID).Issues fun statement => statement.Plain = true :=
  .bind (.perform rfl) fun _ => .bind (.perform rfl) fun _ => .bind (.perform rfl) fun _ => .bind (.perform rfl) fun _ =>
    .bind (.perform rfl) fun _ => .lift

theorem removeForBan_plain (actor : MemberAuthority) (guildID userID : ℤ) (reply : Option GuildRow) :
    (Transaction.removeForBan actor guildID userID reply).Issues fun statement => statement.Plain = true := by
  cases reply with
  | none => exact .pure
  | some guild =>
    simp only [Transaction.removeForBan]
    split_ifs
    · exact .bind .lift fun _ => departMember_plain ..
    · exact .bind (.perform rfl) fun roles => .bind .lift fun _ => departMember_plain ..

/-- Only creations and reorderings list the roles and place them. -/
theorem script_plain {request : GuildRequest} (other : request.Places = false) :
    request.script.Issues fun statement => statement.Plain = true := by
  cases request with
  | createRole guildID actor roleID permissions => cases other
  | reorderRoles guildID actor positions => cases other
  | _ =>
    -- the rules follow the statements of each handler; none of them is of the three kinds
    repeat' first
      | exact .lift
      | exact .perform rfl
      | exact loadMemberAuthority_plain ..
      | exact validateOverwriteAppliesTo_plain ..
      | exact removeForBan_plain ..
      | refine .each (fun userID => ?_) _
      | refine .bind ?_ fun _ => ?_
      | split_ifs

end Plain

variable {log later : StatementLog}

/-- A load of an authority writes no roles, and finds the owner in the log if it returns one. -/
theorem loadMemberAuthority_places {request : GuildRequest} {guildID userID : ℤ}
    {post : StatementLog → MemberAuthority → Prop}
    (next : ∀ later authority, (∀ statement ∈ issued later, statement ∈ issued log ∨ statement.Plain = true ∧
        statement.WritesRoles = false) → AuthorityRead later guildID userID authority → post later authority) :
    (loadMemberAuthority guildID userID).Ensures (PlacesAllowed request) post log := by
  unfold loadMemberAuthority
  simp only [ensures_bind, ensures_lift]
  refine ⟨trivial, fun reply guild loaded => ?_⟩
  obtain rfl := found_eq_ok.mp loaded
  split_ifs with owner
  · refine next _ _ ?_ ⟨guild, [], mem_cons_self, fun other => (other owner).elim, rfl⟩
    rintro statement (_ | ⟨_, before⟩)
    · exact .inr ⟨rfl, rfl⟩
    · exact .inl before
  · simp only [ensures_bind, ensures_pure]
    refine ⟨trivial, fun roles => next _ _ ?_
      ⟨guild, roles, mem_cons_of_mem _ mem_cons_self, fun _ => mem_cons_self, rfl⟩⟩
    rintro statement (_ | ⟨_, _ | ⟨_, before⟩⟩)
    · exact .inr ⟨rfl, rfl⟩
    · exact .inr ⟨rfl, rfl⟩
    · exact .inl before

theorem createGuildRole_places (guildID actorUserID roleID : ℤ) (permissions : Permissions) :
    (Transaction.createGuildRole guildID actorUserID roleID permissions).Ensures
      (PlacesAllowed (.createRole guildID actorUserID roleID permissions))
      (fun log _ => PlacesAll (.createRole guildID actorUserID roleID permissions) log) [] := by
  unfold Transaction.createGuildRole checkResourceQuota
  simp only [ensures_bind, ensures_lift, ensures_check]
  intro _ _ _ _
  refine loadMemberAuthority_places fun log authority new read _ _ => ?_
  have quiet : ∀ statement ∈ issued log, statement.WritesRoles = false := fun statement member =>
    ((new statement member).resolve_left (by simp [issued])).2
  refine ⟨trivial, fun _ => ⟨trivial, fun _ _ _ => ⟨⟨?_, .inl ⟨_, _, _, rfl, ?_⟩⟩, fun roles position placed => ⟨?_, ?_⟩⟩⟩⟩
  · rintro statement (_ | ⟨_, _ | ⟨_, member⟩⟩)
    · rfl
    · rfl
    · exact quiet statement member
  · simp [issued, ResourceQuota.scope]
  · refine ⟨?_, rfl, actorUserID, permissions, authority, roles, _, rfl, suffix_rfl, fun owner => ?_, placed⟩
    · rintro statement (_ | ⟨_, _ | ⟨_, _ | ⟨_, member⟩⟩⟩)
      · rfl
      · rfl
      · rfl
      · exact quiet statement member
    · obtain ⟨guild, roles, loaded, _, rfl⟩ := read
      have own : guild.ownerID = actorUserID := by
        by_contra other
        simp [memberAuthorityFromRoles, other] at owner
      simp only [ownerCreates, any_cons, Bool.or_eq_true]
      exact .inr (.inr (any_eq_true.mpr ⟨_, loaded, by simp [ownerRead, own]⟩))
  · rintro _ _ guildID actor positions reorders
    cases reorders

theorem reorderGuildRoles_places (guildID actorUserID : ℤ) (positions : List (ℤ × ℕ)) :
    (Transaction.reorderGuildRoles guildID actorUserID positions).Ensures
      (PlacesAllowed (.reorderRoles guildID actorUserID positions))
      (fun log _ => PlacesAll (.reorderRoles guildID actorUserID positions) log) [] := by
  unfold Transaction.reorderGuildRoles
  simp only [ensures_bind, ensures_lift, ensures_check]
  intro _ _ _ _ valid
  refine loadMemberAuthority_places fun log authority new _ _ => ?_
  have quiet : ∀ statement ∈ issued log, statement.WritesRoles = false := fun statement member =>
    ((new statement member).resolve_left (by simp [issued])).2
  refine ⟨⟨quiet, .inr ⟨_, _, rfl⟩⟩, fun roles _ final _ _ => ⟨trivial, fun seen => ⟨⟨?_, ?_⟩, ?_⟩⟩⟩
  · rintro statement (_ | ⟨_, _ | ⟨_, member⟩⟩)
    · rfl
    · rfl
    · exact quiet statement member
  · exact ⟨actorUserID, roles, rfl, mem_cons_of_mem _ mem_cons_self, valid, final⟩
  · rintro _ rfl _ _ _ reorders
    cases reorders
    exact ⟨seen, mem_cons_self⟩

/-- Every handler looks at the roles before it places some. -/
theorem script_places (request : GuildRequest) :
    request.script.Ensures (PlacesAllowed request) (fun log _ => PlacesAll request log) [] := by
  by_cases places : request.Places = true
  · cases request with
    | createRole guildID actor roleID permissions => exact createGuildRole_places ..
    | reorderRoles guildID actor positions => exact reorderGuildRoles_places ..
    | _ => cases places
  · have other : request.Places = false := by simpa using places
    have plain : request.script.Ensures (PlacesAllowed request) (fun _ _ => True) [] := by
      refine (script_plain other).ensures fun log statement fits => ?_
      unfold PlacesAllowed
      split
      · cases fits
      · cases fits
      · cases fits
      · exact other
      · exact other
      · trivial
    refine plain.mono fun later _ _ _ guildID actor positions reorders => ?_
    cases reorders
    cases other

end Handlers

end Cordis.Guild
