import Cordis.Session.Membership
import Cordis.Session.Detachment

/-! # Removal of a member against an identifying session

A removed member must end up in no guild index and without a snapshot of the guild. The removal
works on the sessions it finds when it lists them, and then forgets the visibility entry together
with the revision it required; nothing reminds a later section that the member was removed. So an
`identify` that has loaded the guild must have registered its session when the removal lists the
sessions, and must have retained its snapshots when the removal forgets the entry. Under that
condition every session of the user that carries the guild is on the removal's list, and a retained
snapshot always has a session that still carries the guild, or a removal that will clear it.
-/

namespace Cordis.Session

open Registry SetIndex List

/-! ## The condition on the order of sections -/

/-- The session is registered before any newer removal lists the sessions of its user, and the
snapshots are retained before any newer removal is over. -/
def MembershipNode.InOrder (node : MembershipNode) : MembershipEvent → Prop
  | .addSession id _ => ∀ call ∈ node.identifies id, ∀ event ∈ node.listed,
      event.userID = call.identity.userID → ∀ snapshot ∈ call.snapshots.lookup event.guildID,
        event.accessRevision ≤ snapshot.accessRevision
  | .retainSnapshots id => ∀ call ∈ node.identifies id, ∀ event ∈ node.cleared,
      event.userID = call.identity.userID → ∀ snapshot ∈ call.snapshots.lookup event.guildID,
        event.accessRevision ≤ snapshot.accessRevision
  | _ => True

instance (node : MembershipNode) (event : MembershipEvent) : Decidable (node.InOrder event) := by
  cases event <;> dsimp only [MembershipNode.InOrder] <;> infer_instance

/-- Ready states of the user show the guild at most at the loaded revision, and removals of the user
from the guild are newer. -/
def MembershipEvent.Around (guildID userID loaded : ℤ) : MembershipEvent → Prop
  | .loadReadyGuilds _ identity response => identity.userID = userID →
      ∀ ready ∈ response.toOption.getD [], ready.guildID = guildID → ready.accessRevision ≤ loaded
  | .removed _ event =>
      event.guildID = guildID → event.userID = userID → loaded < event.accessRevision
  | _ => True

instance (guildID userID loaded : ℤ) (event : MembershipEvent) :
    Decidable (event.Around guildID userID loaded) := by
  cases event <;> dsimp only [MembershipEvent.Around] <;> infer_instance

/-! ## The invariant -/

namespace RemovalPhase

/-- The listed sessions that may still stand in the guild index. -/
def sessions : RemovalPhase → List SessionRef
  | .detaching rest _ => rest
  | .unindexing session rest _ => session :: rest
  | _ => []

/-- The listed sessions that may still carry the guild. -/
def unvisited : RemovalPhase → List SessionRef
  | .detaching rest _ | .unindexing _ rest _ => rest
  | _ => []

def Detaches : RemovalPhase → Prop
  | .detaching .. | .unindexing .. => True
  | _ => False

/-- A session has been found to carry the guild, so the entry will be removed. -/
def removed : RemovalPhase → Bool
  | .detaching _ removed | .unindexing _ _ removed => removed
  | _ => false

end RemovalPhase

/-- The event removes this user from this guild. -/
def MemberRemoved.Concerns (event : MemberRemoved) (guildID userID : ℤ) : Prop :=
  event.guildID = guildID ∧ event.userID = userID

namespace MembershipNode

variable (guildID userID : ℤ) (node : MembershipNode)

/-- Some session of the user carries the guild. -/
def Carried : Prop :=
  ∃ ref, node.reg.Of userID ref ∧ guildID ∈ node.reg.guildsOf ref

/-- Some removal is going to forget the entry. -/
def Pending : Prop :=
  node.removals.Any fun removal => removal.event.Concerns guildID userID ∧ removal.phase.removed = true

def Covered : Prop :=
  node.Carried guildID userID ∨ node.Pending guildID userID

structure Guarded (guildID userID loaded : ℤ) (node : MembershipNode) : Prop where
  owned : ∀ user ref, node.reg.users.Has user ref ↔ node.reg.Of user ref
  allocated : ∀ ref, node.reg.guilds.Has guildID ref → node.reg.heap ref ≠ none
  loads : node.identifies.All fun _ call => call.identity.userID = userID →
    ∀ snapshot ∈ call.snapshots.lookup guildID, snapshot.accessRevision ≤ loaded
  newer : node.removals.All fun _ removal => removal.event.Concerns guildID userID →
    loaded < removal.event.accessRevision
  listed : node.removals.All fun _ removal => removal.phase.Detaches →
    removal.event ∈ node.listed ∧ ∀ ref ∈ removal.phase.sessions, node.reg.Of removal.event.userID ref
  listedNewer : ∀ event ∈ node.listed, event.Concerns guildID userID → loaded < event.accessRevision
  clearedListed : ∀ event ∈ node.cleared, event ∈ node.listed
  working : node.removals.All fun _ removal => removal.event.Concerns guildID userID →
    removal.phase.Detaches → ∀ ref, node.reg.Of userID ref →
      (node.reg.guilds.Has guildID ref → ref ∈ removal.phase.sessions) ∧
      (guildID ∈ node.reg.guildsOf ref → ref ∈ removal.phase.unvisited)
  finished : ∀ event ∈ node.cleared, event.Concerns guildID userID → ∀ ref, node.reg.Of userID ref →
    ¬ node.reg.guilds.Has guildID ref ∧ guildID ∉ node.reg.guildsOf ref
  visible : ∀ snapshot, visibilitySnapshotFor node.users userID guildID = some snapshot →
    node.Covered guildID userID
  retaining : node.identifies.All fun _ call => call.registered = true → call.identity.userID = userID →
    ∀ snapshot ∈ call.snapshots.lookup guildID, node.Covered guildID userID ∨
      ∃ event ∈ node.cleared, event.Concerns guildID userID

variable {cfg : NodeConfig} {node next : MembershipNode} {guildID userID loaded : ℤ} {id : ℕ}

variable {old phase : RemovalPhase}

/-- A removal that moves on remembers that it has found the guild. -/
theorem Covered.setRemoval (covered : node.Covered guildID userID) {event : MemberRemoved}
    (current : node.removals id = some ⟨event, old⟩)
    (kept : old.removed = true → phase.removed = true) :
    (node.setRemoval id event phase).Covered guildID userID := by
  rcases covered with carried | pending
  · exact .inl carried
  · exact .inr (pending.move current fun ⟨concerns, removed⟩ => ⟨concerns, kept removed⟩)

namespace Guarded

variable (guarded : node.Guarded guildID userID loaded)

include guarded

/-- What is covered stays so, and with it the snapshots. -/
theorem retaining_of {next : MembershipNode} (covered : node.Covered guildID userID → next.Covered guildID userID) :
    node.identifies.All fun _ call => call.registered = true → call.identity.userID = userID →
      ∀ snapshot ∈ call.snapshots.lookup guildID, next.Covered guildID userID ∨
        ∃ event ∈ node.cleared, event.Concerns guildID userID :=
  guarded.retaining.mono fun _ _ _ retaining registered mine snapshot found =>
    (retaining registered mine snapshot found).imp_left covered

variable {ref : SessionRef} {event : MemberRemoved} {removed : Bool}

/-- A change of one session that gives no session the guild. -/
theorem modify (ref : SessionRef) {f : LogicalSession → LogicalSession}
    (user : ∀ session, (f session).userID = session.userID)
    (fewer : ∀ other, guildID ∈ (node.reg.modify ref f).guildsOf other → guildID ∈ node.reg.guildsOf other)
    (covered : node.Covered guildID userID →
      ({ node with reg := node.reg.modify ref f } : MembershipNode).Covered guildID userID) :
    ({ node with reg := node.reg.modify ref f } : MembershipNode).Guarded guildID userID loaded := by
  have of : ∀ user other, (node.reg.modify ref f).Of user other ↔ node.reg.Of user other :=
    fun _ _ => of_modify user
  refine { guarded with
    owned := ?_, allocated := ?_, listed := ?_, working := ?_, finished := ?_
    visible := fun snapshot stored => covered (guarded.visible snapshot stored), retaining := guarded.retaining_of covered }
  · simp only [of, modify_users]
    exact guarded.owned
  · simp only [modify_guilds, heap_modify_ne_none]
    exact guarded.allocated
  · simp only [of]
    exact guarded.listed
  · simp only [of, modify_guilds]
    exact guarded.working.mono fun _ _ _ working concerns detaches other held =>
      (working concerns detaches other held).imp_right fun stays carried => stays (fewer other carried)
  · simp only [of, modify_guilds]
    exact fun event cleared concerns other held =>
      (guarded.finished event cleared concerns other held).imp_right fun absent carried => absent (fewer other carried)

/-- No section of a session changes whose it is or which guilds it carries. -/
theorem sections (ref : SessionRef) (ran : SessionEvent) :
    ({ node with reg := node.reg.modify ref fun session => stepSession cfg session ran } :
      MembershipNode).Guarded guildID userID loaded := by
  have user (session : LogicalSession) : (stepSession cfg session ran).userID = session.userID :=
    (sameIdentity_step cfg session ran).userID
  have guilds (other : SessionRef) : (node.reg.modify ref fun session => stepSession cfg session ran).guildsOf other =
      node.reg.guildsOf other := guildsOf_modify fun session => (sameIdentity_step cfg session ran).guilds
  refine guarded.modify ref user (fun other carried => guilds other ▸ carried) ?_
  rintro (⟨other, owned, carried⟩ | pending)
  · exact .inl ⟨other, (of_modify user).mpr owned, (guilds other).symm ▸ carried⟩
  · exact .inr pending

variable {snapshots : List (ℤ × VisibilitySnapshot)} {identity : Identity}

theorem load (older : identity.userID = userID →
      ∀ snapshot ∈ snapshots.lookup guildID, snapshot.accessRevision ≤ loaded) :
    ({ node with identifies := node.identifies.set id { identity, snapshots } } :
      MembershipNode).Guarded guildID userID loaded :=
  { guarded with
    loads := guarded.loads.set older
    retaining := guarded.retaining.set fun registered => by cases registered }

/-- Once a removal of the user from the guild has listed sessions, no session is registered that
carries the guild. -/
theorem not_mem_guilds {call : Identifying} (current : node.identifies id = some call)
    (ordered : node.InOrder (.addSession id ref)) (mine : call.identity.userID = userID)
    (listed : event ∈ node.listed) (concerns : event.Concerns guildID userID) : guildID ∉ call.guilds := by
  intro carried
  obtain ⟨snapshot, found⟩ := Identifying.mem_guilds carried
  obtain ⟨rfl, rfl⟩ := concerns
  have newer := guarded.listedNewer event listed ⟨rfl, rfl⟩
  have older := guarded.loads id call current mine snapshot found
  have enough := ordered call current event listed mine.symm snapshot found
  omega

/-- The new session carries the guild only while no removal has listed the user's sessions, so what
a removal has left to do stays complete. -/
theorem addSession {call : Identifying} {session : LogicalSession}
    (current : node.identifies id = some call) (user : session.userID = call.identity.userID)
    (guilds : session.guilds = call.guilds) (fresh : node.reg.heap ref = none)
    (ordered : node.InOrder (.addSession id ref)) :
    ({ node with
      reg := node.reg.addSession ref session
      identifies := node.identifies.set id { call with registered := true } } :
        MembershipNode).Guarded guildID userID loaded := by
  have apart : ∀ {other}, node.reg.Of userID other → other ≠ ref := by
    rintro other ⟨held, present, _⟩ rfl
    cases fresh.symm.trans present
  have has : ∀ {other}, (node.reg.addSession ref session).guilds.Has guildID other →
      node.reg.guilds.Has guildID other ∨ (guildID ∈ session.guilds ∧ other = ref) :=
    has_addAll.mp
  have covered : node.Covered guildID userID → ({ node with
      reg := node.reg.addSession ref session
      identifies := node.identifies.set id { call with registered := true } } :
        MembershipNode).Covered guildID userID := by
    rintro (⟨other, held, carried⟩ | pending)
    · refine .inl ⟨other, (of_addSession fresh).mpr (.inl held), ?_⟩
      rwa [guildsOf_addSession, if_neg (apart held)]
    · exact .inr pending
  have kept : ∀ event ∈ node.listed, event.Concerns guildID userID → ∀ {stands carries : SessionRef → Prop},
      (∀ other, node.reg.Of userID other → (node.reg.guilds.Has guildID other → stands other) ∧
        (guildID ∈ node.reg.guildsOf other → carries other)) →
      ∀ other, (node.reg.addSession ref session).Of userID other →
        ((node.reg.addSession ref session).guilds.Has guildID other → stands other) ∧
        (guildID ∈ (node.reg.addSession ref session).guildsOf other → carries other) := by
    intro event listed concerns stands carries before other of
    rcases (of_addSession fresh).mp of with held | ⟨mine, rfl⟩
    · refine ⟨fun indexed => (before other held).1 ?_, fun carried => (before other held).2 ?_⟩
      · exact (has indexed).resolve_right fun new => apart held new.2
      · rwa [guildsOf_addSession, if_neg (apart held)] at carried
    · have absent : guildID ∉ session.guilds :=
        guilds ▸ guarded.not_mem_guilds current ordered (user ▸ mine) listed concerns
      refine ⟨fun indexed => ?_, fun carried => ?_⟩
      · exact ((has indexed).elim (fun old => guarded.allocated other old fresh) fun new => absent new.1).elim
      · rw [guildsOf_addSession, if_pos rfl] at carried
        exact (absent carried).elim
  refine { guarded with
    owned := ?_, allocated := ?_, loads := ?_, listed := ?_, working := ?_, finished := ?_, visible := ?_,
    retaining := ?_ }
  · intro user other
    rw [of_addSession fresh, ← guarded.owned]
    exact has_add.trans (or_congr_right (and_congr_left fun _ => eq_comm))
  · intro other indexed
    rw [heap_addSession]
    split_ifs with same
    · exact Option.some_ne_none _
    · exact guarded.allocated other ((has indexed).resolve_right fun new => same new.2)
  · exact guarded.loads.set fun mine => guarded.loads id call current mine
  · refine guarded.listed.mono fun _ removal _ listed detaches => ?_
    exact ⟨(listed detaches).1, fun other visited =>
      (of_addSession fresh).mpr (.inl ((listed detaches).2 other visited))⟩
  · intro task removal running concerns detaches
    exact kept removal.event (guarded.listed task removal running detaches).1 concerns
      (guarded.working task removal running concerns detaches)
  · intro event cleared concerns
    exact kept event (guarded.clearedListed event cleared) concerns (guarded.finished event cleared concerns)
  · exact fun snapshot stored => covered (guarded.visible snapshot stored)
  · refine Pool.All.set (guarded.retaining_of covered) fun _ mine snapshot found => ?_
    refine .inl (.inl ⟨ref, (of_addSession fresh).mpr (.inr ⟨user.trans mine, rfl⟩), ?_⟩)
    rw [guildsOf_addSession, if_pos rfl, guilds]
    exact Identifying.lookup_mem_guilds found

theorem retain
    (current : node.identifies id = some ⟨identity, snapshots, true⟩) (ordered : node.InOrder (.retainSnapshots id)) :
    ({ node with
      users := retainVisibilitySnapshots node.users identity.userID snapshots
      identifies := node.identifies.drop id } : MembershipNode).Guarded guildID userID loaded := by
  refine { guarded with loads := guarded.loads.drop id, retaining := guarded.retaining.drop id, visible := ?_ }
  intro stored present
  by_cases mine : identity.userID = userID
  · subst mine
    cases found : snapshots.lookup guildID with
    | none =>
      rw [visibilitySnapshotFor, entryFor_retain, found] at present
      exact guarded.visible stored present
    | some snapshot =>
      rcases guarded.retaining id _ current rfl rfl snapshot found with covered | ⟨event, cleared, concerns⟩
      · exact covered
      · have newer := guarded.listedNewer event (guarded.clearedListed event cleared) concerns
        have older := guarded.loads id _ current rfl snapshot found
        obtain ⟨rfl, same⟩ := concerns
        have enough := ordered _ current event cleared same snapshot found
        omega
  · rw [visibilitySnapshotFor, entryFor_retain_of_ne _ (Ne.symm mine)] at present
    exact guarded.visible stored present

theorem beginRemoval (free : node.removals id = none) {found : Bool}
    (newer : event.Concerns guildID userID → loaded < event.accessRevision) :
    (node.setRemoval id event (.invalidating found)).Guarded guildID userID loaded := by
  have covered : node.Covered guildID userID →
      (node.setRemoval id event (.invalidating found)).Covered guildID userID := by
    rintro (carried | pending)
    · exact .inl carried
    · exact .inr (pending.set_of_none free _)
  exact { guarded with
    newer := guarded.newer.set newer
    listed := guarded.listed.set fun detaches => detaches.elim
    working := guarded.working.set fun _ detaches => detaches.elim
    visible := fun snapshot stored => covered (guarded.visible snapshot stored)
    retaining := guarded.retaining_of covered }

/-- A removal moves on in a way that does not change the sessions. -/
theorem setRemoval
    (current : node.removals id = some ⟨event, old⟩) (found : old.removed = true → phase.removed = true)
    (listed : phase.Detaches →
      event ∈ node.listed ∧ ∀ ref ∈ phase.sessions, node.reg.Of event.userID ref)
    (working : event.Concerns guildID userID → phase.Detaches → ∀ ref, node.reg.Of userID ref →
      (node.reg.guilds.Has guildID ref → ref ∈ phase.sessions) ∧
      (guildID ∈ node.reg.guildsOf ref → ref ∈ phase.unvisited)) :
    (node.setRemoval id event phase).Guarded guildID userID loaded :=
  { guarded with
    newer := guarded.newer.set fun concerns => guarded.newer id ⟨event, old⟩ current concerns
    listed := guarded.listed.set listed
    working := guarded.working.set working
    visible := fun snapshot stored => (guarded.visible snapshot stored).setRemoval current found
    retaining := guarded.retaining_of fun covered => covered.setRemoval current found }

/-- An invalidation clears a snapshot or leaves it as it is. -/
theorem invalidate {found : Bool}
    (current : node.removals id = some ⟨event, .invalidating found⟩) (users : VisibilityUsers)
    (fewer : ∀ snapshot, visibilitySnapshotFor users userID guildID = some snapshot →
      visibilitySnapshotFor node.users userID guildID = some snapshot) :
    ({ node with users } : MembershipNode).setRemoval id event .dispatching |>.Guarded guildID userID loaded := by
  have cleared : ({ node with users } : MembershipNode).Guarded guildID userID loaded :=
    { guarded with visible := fun snapshot stored => guarded.visible snapshot (fewer snapshot stored) }
  exact cleared.setRemoval current (by rintro ⟨⟩) (by rintro ⟨⟩) (by rintro _ ⟨⟩)

/-- The removal lists all sessions of the user. -/
theorem list {order : List SessionRef} (current : node.removals id = some ⟨event, .dispatching⟩)
    (all : sessionsFromSet (node.reg.users.members event.userID) order) :
    ({ node with listed := event :: node.listed } : MembershipNode).setRemoval id event
      (.detaching order false) |>.Guarded guildID userID loaded := by
  have member : ∀ ref, ref ∈ order ↔ node.reg.Of event.userID ref := by
    intro ref
    rw [← guarded.owned, has_iff_mem_members, ← all.2, mem_toFinset]
  have recorded : ({ node with listed := event :: node.listed } : MembershipNode).Guarded
      guildID userID loaded :=
    { guarded with
      listed := guarded.listed.mono fun _ _ _ listed detaches =>
        ⟨mem_cons_of_mem _ (listed detaches).1, (listed detaches).2⟩
      listedNewer := forall_mem_cons.mpr ⟨guarded.newer id _ current, guarded.listedNewer⟩
      clearedListed := fun other cleared => mem_cons_of_mem _ (guarded.clearedListed other cleared) }
  refine recorded.setRemoval current (by rintro ⟨⟩) ?_ ?_
  · exact fun _ => ⟨mem_cons_self, fun ref listed => (member ref).mp listed⟩
  · rintro ⟨rfl, rfl⟩ _ ref of
    exact ⟨fun _ => (member ref).mpr of, fun _ => (member ref).mpr of⟩

/-- A session that loses the guild has its entry removed by the end of the removal. -/
theorem leaveGuild {rest : List SessionRef}
    (current : node.removals id = some ⟨event, .detaching (ref :: rest) removed⟩) :
    ({ node with reg := node.reg.modify ref (LogicalSession.leaveGuild event.guildID) } :
      MembershipNode).setRemoval id event
        (.unindexing ref rest (removed || decide (event.guildID ∈ node.reg.guildsOf ref))) |>.Guarded
          guildID userID loaded := by
  have listed := guarded.listed id _ current trivial
  have user (session : LogicalSession) : (session.leaveGuild event.guildID).userID = session.userID := rfl
  -- the removal remembers what it finds before the session loses the guild
  have found : (node.setRemoval id event (.detaching (ref :: rest)
      (removed || decide (event.guildID ∈ node.reg.guildsOf ref)))).Guarded guildID userID loaded :=
    guarded.setRemoval current (fun found => Bool.or_eq_true_iff.mpr (.inl found)) (fun _ => listed)
      fun concerns _ => guarded.working id _ current concerns trivial
  have left := found.modify ref user (fun _ carried => (mem_guildsOf_leaveGuild.mp carried).1) ?_
  · have moved : (MembershipNode.setRemoval _ id event (.unindexing ref rest _)).Guarded guildID userID loaded :=
      left.setRemoval (Pool.set_self ..) (fun found => found)
        (fun _ => left.listed id _ (Pool.set_self ..) trivial) fun concerns _ other held => ?_
    · simpa [MembershipNode.setRemoval, Pool.set] using moved
    · have working := left.working id _ (Pool.set_self ..) concerns trivial other held
      refine ⟨working.1, fun carried => ?_⟩
      have stays := (mem_guildsOf_leaveGuild.mp carried).2
      exact (mem_cons.mp (working.2 carried)).resolve_left fun same => stays ⟨same, concerns.1.symm⟩
  · rintro (⟨other, held, carried⟩ | pending)
    · by_cases leaves : other = ref ∧ guildID = event.guildID
      · obtain ⟨rfl, rfl⟩ := leaves
        obtain ⟨session, present, rfl⟩ := held
        obtain ⟨_, known, mine⟩ := listed.2 other mem_cons_self
        cases present.symm.trans known
        exact .inr (Pool.any_set_self _ _ ⟨⟨rfl, mine.symm⟩, Bool.or_eq_true_iff.mpr (.inr (decide_eq_true carried))⟩)
      · exact .inl ⟨other, (of_modify user).mpr held, mem_guildsOf_leaveGuild.mpr ⟨carried, leaves⟩⟩
    · exact .inr pending

theorem unindex {rest : List SessionRef}
    (current : node.removals id = some ⟨event, .unindexing ref rest removed⟩) :
    ({ node with reg := { node.reg with
        guilds := removeIndex node.reg.guilds event.guildID ref } } :
      MembershipNode).setRemoval id event (.detaching rest removed) |>.Guarded guildID userID loaded := by
  have fewer : ∀ other, (removeIndex node.reg.guilds event.guildID ref).Has guildID other →
      node.reg.guilds.Has guildID other ∧ ¬ (guildID = event.guildID ∧ other = ref) :=
    fun _ => has_remove.mp
  have unindexed : ({ node with reg := { node.reg with
      guilds := removeIndex node.reg.guilds event.guildID ref } } :
        MembershipNode).Guarded guildID userID loaded :=
    { guarded with
      allocated := fun other indexed => guarded.allocated other (fewer other indexed).1
      working := guarded.working.mono fun _ _ _ working concerns detaches other held =>
        ⟨fun indexed => (working concerns detaches other held).1 (fewer other indexed).1,
          (working concerns detaches other held).2⟩
      finished := fun other cleared concerns found held =>
        ⟨fun indexed => (guarded.finished other cleared concerns found held).1 (fewer found indexed).1,
          (guarded.finished other cleared concerns found held).2⟩ }
  refine unindexed.setRemoval current (fun found => found) ?_ ?_
  · exact fun _ => ⟨(guarded.listed id _ current trivial).1, fun other listed =>
      (guarded.listed id _ current trivial).2 other (mem_cons_of_mem _ listed)⟩
  · intro concerns _ other held
    have working := guarded.working id _ current concerns trivial other held
    refine ⟨fun indexed => ?_, working.2⟩
    obtain ⟨before, stays⟩ := fewer other indexed
    exact (mem_cons.mp (working.1 before)).resolve_left fun same => stays ⟨concerns.1.symm, same⟩

/-- The end of a removal: no listed session is left, and the entry is forgotten if any of them
carried the guild. -/
theorem clear (current : node.removals id = some ⟨event, .detaching [] removed⟩) :
    ({ node with
      users := if removed then removeVisibilityGuild node.users event.userID event.guildID else node.users
      removals := node.removals.drop id
      cleared := event :: node.cleared } : MembershipNode).Guarded guildID userID loaded := by
  have empty : event.Concerns guildID userID → ∀ ref, node.reg.Of userID ref →
      ¬ node.reg.guilds.Has guildID ref ∧ guildID ∉ node.reg.guildsOf ref := by
    intro concerns ref held
    have working := guarded.working id _ current concerns trivial ref held
    exact ⟨fun indexed => not_mem_nil (working.1 indexed),
      fun carried => not_mem_nil (working.2 carried)⟩
  have covered : ¬ (event.Concerns guildID userID ∧ removed = true) → node.Covered guildID userID →
      ({ node with removals := node.removals.drop id } : MembershipNode).Covered guildID userID := by
    rintro other (carried | pending)
    · exact .inl carried
    · exact .inr ((pending.drop_or current).resolve_right other)
  refine { guarded with
    newer := guarded.newer.drop id
    listed := guarded.listed.drop id
    working := guarded.working.drop id
    clearedListed := forall_mem_cons.mpr ⟨(guarded.listed id _ current trivial).1, guarded.clearedListed⟩
    finished := forall_mem_cons.mpr ⟨empty, guarded.finished⟩
    visible := ?_
    retaining := ?_ }
  · intro snapshot stored
    by_cases own : event.Concerns guildID userID ∧ removed = true
    · obtain ⟨⟨rfl, rfl⟩, rfl⟩ := own
      simp only [if_true, visibilitySnapshotFor, entryFor_remove, Option.bind_none] at stored
      cases stored
    · refine covered own (guarded.visible snapshot ?_)
      cases removed with
      | false => exact stored
      | true =>
        have other : ¬ (userID = event.userID ∧ guildID = event.guildID) := fun same =>
          own ⟨⟨same.2.symm, same.1.symm⟩, rfl⟩
        simp only [if_true, visibilitySnapshotFor, entryFor_remove_of_ne _ other] at stored
        exact stored
  · refine guarded.retaining.mono fun _ _ _ retaining registered mine snapshot known => ?_
    by_cases concerns : event.Concerns guildID userID
    · exact .inr ⟨event, mem_cons_self, concerns⟩
    · rcases retaining registered mine snapshot known with kept | ⟨past, cleared, same⟩
      · exact .inl (covered (fun own => concerns own.1) kept)
      · exact .inr ⟨past, mem_cons_of_mem _ cleared, same⟩

end Guarded

end MembershipNode

end Cordis.Session
