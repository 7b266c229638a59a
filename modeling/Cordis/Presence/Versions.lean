import Cordis.Presence.Reconciliation

/-! # The versions and the events of a user's presence

A status is stored under a new version, larger than the one before, and only what is stored is shown. So a
version stands for one status, wherever calls crash and whatever the Snowflake nodes return. The same goes for
the preference.

The last event published is the stored status, unless a call of `ResolveUsersPresence` was the first to find that
sessions have expired: it stores the new status and publishes nothing.
-/

namespace Cordis.Presence

open UserState Option

variable {state next : UserState} {effect : Effect}

/-- What is stored parses, and what a call remembers is what it has stored. -/
structure Sound (state : UserState) : Prop where
  snapshot : ∀ presence ∈ state.snapshotHash, presence.status ≠ .invisible ∧ 0 < presence.version
  preference : ∀ preference ∈ state.preferenceHash, preference.status ≠ .offline ∧ 0 < preference.version
  saved : ∀ preference ∈ state.saved, state.preferenceHash = some preference
  reconciled : ∀ presence ∈ state.reconciled, state.snapshotHash.map (·.stamp) = some presence.stamp
  versioned : Versioned (state.snapshotHash.map (·.stamp)) state.shown
  preferences : Versioned (state.preferenceHash.map (·.stamp)) state.preferencesShown

/-- Both stored values have kept their versions or got larger ones. -/
def Rises (state next : UserState) : Prop :=
  Advances (state.snapshotHash.map (·.stamp)) (next.snapshotHash.map (·.stamp)) ∧
    Advances (state.preferenceHash.map (·.stamp)) (next.preferenceHash.map (·.stamp))

theorem lt_of_nextVersion {snowflake previous version : ℤ} (next : nextVersion snowflake previous = some version) :
    previous < version := by
  unfold nextVersion at next
  split_ifs at next with above
  · cases next
    exact above
  · cases next
    exact lt_add_one previous

theorem aggregate_visible (preference : UserPresencePreference) (sessions : List UserSession) :
    (aggregateUserPresence preference sessions).status ≠ .invisible := by
  simp only [aggregateUserPresence]
  split_ifs with live offline
  · nofun
  · exact live.2
  · nofun

section

variable (sound : Sound state)

include sound

theorem Sound.getSnapshot : state.getUserPresenceSnapshot = state.snapshotHash := by
  unfold getUserPresenceSnapshot
  cases stored : state.snapshotHash with
  | none => rfl
  | some presence => exact filter_some_pos (decide_eq_true (sound.snapshot presence stored))

theorem Sound.getPreference : state.getUserPresencePreference = state.preferenceHash := by
  unfold getUserPresencePreference
  cases stored : state.preferenceHash with
  | none => rfl
  | some preference => exact filter_some_pos (decide_eq_true (sound.preference preference stored))

theorem Sound.savePreference {status : Selectable} {version : ℤ} (selected : Bool)
    (above : ∀ old ∈ state.preferenceHash, old.version < version) (positive : 0 < version)
    (isNext : next = { state.saveUserPresencePreference ⟨status, version⟩ with selected }) :
    Sound next ∧ Rises state next := by
  subst isNext
  have advances : Advances (state.preferenceHash.map (·.stamp)) (some (status.val, version)) := by
    intro old found
    obtain ⟨preference, stored, rfl⟩ := map_eq_some_iff.mp found
    exact ⟨_, rfl, (above preference stored).le, fun _ => above preference stored⟩
  have preferences := sound.preferences.replace advances
  refine ⟨{ sound with preference := ?_, saved := ?_, preferences }, .refl _, advances⟩
  · rintro _ ⟨⟩
    exact ⟨status.property, positive⟩
  · rintro _ ⟨⟩
    rfl

/-- What a reconciliation stores: the status as it was under its version, or another one under a larger version. -/
theorem Sound.reconcile {now snowflake : ℤ} (reconciled : state.reconcileUserPresence now snowflake = some next) :
    ∃ presence : UserPresence, next = { state with
        sessions := next.sessions, snapshotHash := next.snapshotHash
        reconciled := some presence, changed := next.changed } ∧
      next.snapshotHash.map (·.stamp) = some presence.stamp ∧
      presence.status = (state.resolveUserPresence now).status ∧ 0 < presence.version ∧
      (next.changed = true ∧ (∀ old ∈ state.snapshotHash, old.version < presence.version) ∨
        next.changed = false ∧ state.snapshotHash.map (·.stamp) = some presence.stamp) ∧
      ∀ stored ∈ next.snapshotHash, stored = presence ∨ stored ∈ state.snapshotHash := by
  unfold reconcileUserPresence at reconciled
  rw [sound.getSnapshot] at reconciled
  obtain ⟨version, versioned, rfl⟩ := map_eq_some_iff.mp reconciled
  refine ⟨_, rfl, ?_⟩
  dsimp only
  by_cases same : state.snapshotHash.map UserPresence.status = some (state.resolveUserPresence now).status
  · obtain ⟨old, stored, status⟩ := map_eq_some_iff.mp same
    simp only [stored, map_some, getD_some, status, ne_eq, not_true_eq_false, decide_false,
      Bool.false_eq_true, ↓reduceIte, some.injEq] at versioned
    subst versioned
    have stamp : some old.stamp = some ((state.resolveUserPresence now).status, old.version) := by rw [← status]; rfl
    refine ⟨?_, rfl, (sound.snapshot old stored).2, .inr ⟨by simp [same], ?_⟩, ?_⟩
    · split
      · rfl
      · rw [stored]
        exact stamp
    · rw [stored]
      exact stamp
    · intro found isFound
      split at isFound
      · cases isFound
        exact .inl rfl
      · exact .inr isFound
  · simp only [same, ne_eq, not_false_eq_true, decide_true, true_or, ↓reduceIte] at versioned ⊢
    have above := lt_of_nextVersion versioned
    have positive : 0 < version := by
      cases stored : state.snapshotHash with
      | none => simpa [stored] using above
      | some old =>
        have known := (sound.snapshot old stored).2
        simp only [stored, map_some, getD_some] at above
        exact known.trans above
    refine ⟨rfl, trivial, positive, .inl ⟨trivial, fun old stored => ?_⟩, fun found isFound => ?_⟩
    · rw [mem_def.mp stored] at above
      exact above
    · cases isFound
      exact .inl rfl

theorem Sound.reconciled_of {now snowflake : ℤ} (reconciled : state.reconcileUserPresence now snowflake = some next) :
    Sound next ∧ Rises state next := by
  obtain ⟨presence, same, stamp, status, positive, outcome, stored⟩ := sound.reconcile reconciled
  have advances : Advances (state.snapshotHash.map (·.stamp)) (next.snapshotHash.map (·.stamp)) := by
    rw [stamp]
    rcases outcome with ⟨_, above⟩ | ⟨_, kept⟩
    · intro old found
      obtain ⟨before, wasStored, rfl⟩ := map_eq_some_iff.mp found
      exact ⟨_, rfl, (above before wasStored).le, fun _ => above before wasStored⟩
    · rw [kept]
      exact .refl _
  have versioned := sound.versioned.replace advances
  rw [same] at stored stamp versioned advances ⊢
  refine ⟨{ sound with snapshot := fun found isFound => ?_, reconciled := ?_, versioned }, advances, .refl _⟩
  · rcases stored found isFound with rfl | before
    · exact ⟨status ▸ aggregate_visible _ _, positive⟩
    · exact sound.snapshot found before
  · rintro _ ⟨⟩
    exact stamp

theorem sound_perform (performed : state.perform effect = some next) : Sound next ∧ Rises state next := by
  have kept : Rises state state := ⟨.refl _, .refl _⟩
  have preferenceStored : ∀ stamp ∈ state.saved.map (·.stamp), state.preferenceHash.map (·.stamp) = some stamp := by
    intro stamp found
    obtain ⟨preference, isSaved, rfl⟩ := map_eq_some_iff.mp found
    rw [sound.saved preference isSaved]
    rfl
  have presenceStored : ∀ stamp ∈ state.reconciled.map (·.stamp), state.snapshotHash.map (·.stamp) = some stamp := by
    intro stamp found
    obtain ⟨presence, isReconciled, rfl⟩ := map_eq_some_iff.mp found
    exact sound.reconciled presence isReconciled
  cases effect with
  | ensurePreference initial snowflake =>
    simp only [perform, ensureUserPresencePreference, sound.getPreference] at performed
    split at performed
    · next preference stored =>
      cases performed
      exact ⟨{ sound with saved := fun other isSaved => by cases isSaved; exact stored }, kept⟩
    · next unknown =>
      obtain ⟨version, isNext, rfl⟩ := map_eq_some_iff.mp performed
      exact sound.savePreference _ (by simp [unknown]) (lt_of_nextVersion isNext) rfl
  | selectStatus status snowflake =>
    obtain ⟨preference, isSaved, performed⟩ := bind_eq_some_iff.mp performed
    split_ifs at performed
    · cases performed
      exact ⟨sound, kept⟩
    · obtain ⟨version, isNext, rfl⟩ := map_eq_some_iff.mp performed
      have stored := sound.saved preference isSaved
      have above := lt_of_nextVersion isNext
      refine sound.savePreference _ (fun old isStored => ?_) ((sound.preference preference stored).2.trans above) rfl
      cases stored.symm.trans isStored
      exact above
  | publishPreference =>
    cases performed
    split_ifs
    · exact ⟨{ sound with preferences := sound.preferences.shows preferenceStored }, kept⟩
    · exact ⟨sound, kept⟩
  | upsertSession sessionID now expiresAt | removeSession sessionID => cases performed; exact ⟨{ sound with }, kept⟩
  | updateSession sessionID now expiresAt =>
    cases performed
    split_ifs
    · exact ⟨{ sound with }, kept⟩
    · exact ⟨sound, kept⟩
  | reconcile now snowflake => exact sound.reconciled_of performed
  | publish =>
    cases performed
    split_ifs
    · exact ⟨{ sound with versioned := sound.versioned.shows presenceStored }, kept⟩
    · exact ⟨sound, kept⟩
  | respond => cases performed; exact ⟨{ sound with versioned := sound.versioned.shows presenceStored }, kept⟩
  | respondPreference =>
    cases performed
    exact ⟨{ sound with preferences := sound.preferences.shows preferenceStored }, kept⟩

theorem sound_performAll (effects : List Effect) :
    Sound (state.performAll effects) ∧ Rises state (state.performAll effects) := by
  induction effects generalizing state with
  | nil => exact ⟨sound, .refl _, .refl _⟩
  | cons effect rest ih =>
    unfold performAll
    cases performed : state.perform effect with
    | none => exact ⟨sound, .refl _, .refl _⟩
    | some next =>
      obtain ⟨soundNext, rises⟩ := sound_perform sound performed
      obtain ⟨soundRest, risesRest⟩ := ih soundNext
      exact ⟨soundRest, rises.1.trans risesRest.1, rises.2.trans risesRest.2⟩

/-- A call begins with nothing remembered. -/
theorem Sound.fresh : Sound { state with saved := none, selected := false, reconciled := none, changed := false } :=
  { sound with saved := nofun, reconciled := nofun }

end

theorem sound_empty : Sound {} := ⟨nofun, nofun, nofun, nofun, .empty _, .empty _⟩

theorem sound_step (sound : Sound state) (event : PresenceEvent) :
    Sound (state.step event) ∧ Rises state (state.step event) := by
  cases event with
  | call call reached => exact sound_performAll sound.fresh _
  | refreshUserSessions | expire => exact ⟨{ sound with }, .refl _, .refl _⟩

theorem sound_run {events : List PresenceEvent} (run : presenceMachine.run {} events = some state) : Sound state := by
  refine Machine.invariant_run (fun _ event _ kept step => ?_) run sound_empty
  cases step
  exact (sound_step kept event).1

/-- Whatever the clocks and the Snowflake nodes return and wherever calls crash: a version has been shown with one
status only, and the stored version never falls and rises with every change of the status, of the presence and
of the preference. -/
theorem version_determines_status {events : List PresenceEvent} (run : presenceMachine.run {} events = some state) :
    (∀ one ∈ state.shown, ∀ other ∈ state.shown, one.2 = other.2 → one.1 = other.1) ∧
      (∀ one ∈ state.preferencesShown, ∀ other ∈ state.preferencesShown, one.2 = other.2 → one.1 = other.1) ∧
      ∀ event, Rises state (state.step event) := by
  have sound := sound_run run
  exact ⟨sound.versioned.unique, sound.preferences.unique, fun event => (sound_step sound event).2⟩

/-- A node with a late clock stores the next status and crashes; the next call shows what it has stored. -/
def crashedUpdate : List PresenceEvent := [.call (.register "phone" none 1 10 5 7) 6,
  .call (.update "phone" (some ⟨.idle, nofun⟩) false 2 10 0 3 4) 4, .call (.resolve 3 1) 2]

theorem crashed_update_shown_once : ∃ state, presenceMachine.run {} crashedUpdate = some state ∧
      state.shown = [(.idle, 8), (.online, 7), (.online, 7)] ∧
      ∀ one ∈ state.shown, ∀ other ∈ state.shown, one.2 = other.2 → one.1 = other.1 := by
  refine Machine.exists_run rfl fun run => ⟨by decide, ?_⟩
  exact (version_determines_status run).1

/-! ## Events -/

/-- The last event published is what is stored. -/
def Announced (state : UserState) : Prop := state.snapshotHash.map (·.stamp) = state.events.head?

/-- Every reconciliation is followed by its publication. -/
def paired : List Effect → Bool
  | [] => true
  | .reconcile _ _ :: .publish :: rest => paired rest
  | .reconcile _ _ :: _ => false
  | _ :: rest => paired rest

theorem changed_of_reconcile {now snowflake : ℤ}
    (reconciled : state.reconcileUserPresence now snowflake = some next) :
    next.changed = decide (state.getUserPresenceSnapshot.map UserPresence.status ≠
      some (state.resolveUserPresence now).status) := by
  obtain ⟨_, _, rfl⟩ := map_eq_some_iff.mp reconciled
  rfl

section

variable (sound : Sound state) (announced : Announced state)

include sound announced

/-- An effect other than a reconciliation leaves the stored snapshot, and publishes it if anything. -/
theorem announced_perform (other : ∀ now snowflake, effect ≠ .reconcile now snowflake)
    (performed : state.perform effect = some next) : Announced next := by
  cases effect with
  | ensurePreference initial snowflake =>
    simp only [perform, ensureUserPresencePreference] at performed
    split at performed
    · cases performed
      exact announced
    · obtain ⟨_, _, rfl⟩ := map_eq_some_iff.mp performed
      exact announced
  | selectStatus status snowflake =>
    obtain ⟨_, _, performed⟩ := bind_eq_some_iff.mp performed
    split_ifs at performed
    · cases performed
      exact announced
    · obtain ⟨_, _, rfl⟩ := map_eq_some_iff.mp performed
      exact announced
  | reconcile now snowflake => exact (other now snowflake rfl).elim
  | publish =>
    cases performed
    split_ifs
    · cases remembered : state.reconciled with
      | none => simpa [Announced, remembered] using announced
      | some presence => exact sound.reconciled presence remembered
    · exact announced
  | publishPreference | updateSession => cases performed; split_ifs <;> exact announced
  | _ => cases performed; exact announced

/-- A reconciliation that finds no change leaves the stored stamp; one that does is published next. -/
theorem announced_reconcile {now snowflake : ℤ}
    (reconciled : state.reconcileUserPresence now snowflake = some next) :
    (next.changed = false → Announced next) ∧
      ∀ published, next.perform .publish = some published → Announced published := by
  obtain ⟨presence, same, stamp, _, _, outcome, _⟩ := sound.reconcile reconciled
  have events : next.events = state.events := by rw [same]
  have remembered : next.reconciled = some presence := by rw [same]
  have unchanged : next.changed = false → Announced next := by
    intro quiet
    rcases outcome with ⟨changed, _⟩ | ⟨_, kept⟩
    · cases quiet.symm.trans changed
    · rw [Announced, events, ← announced, stamp, kept]
  refine ⟨unchanged, fun published performed => ?_⟩
  cases performed
  split_ifs with changed
  · simpa [Announced, remembered] using stamp
  · exact unchanged (Bool.eq_false_of_not_eq_true changed)

theorem announced_performAll {effects : List Effect} (isPaired : paired effects = true) :
    Announced (state.performAll effects) := by
  induction effects using paired.induct generalizing state with
  | case1 => exact announced
  | case2 now snowflake rest ih =>
    unfold performAll
    cases reconciled : state.perform (.reconcile now snowflake) with
    | none => exact announced
    | some middle =>
      have published : middle.perform .publish = some _ := rfl
      have soundMiddle := (sound_perform sound reconciled).1
      have announcedToo := (announced_reconcile sound announced reconciled).2 _ published
      exact ih (sound_perform soundMiddle published).1 announcedToo isPaired
  | case3 now snowflake rest unpublished => simp [paired] at isPaired
  | case4 effect rest unpublished other ih =>
    unfold performAll
    cases performed : state.perform effect with
    | none => exact announced
    | some next =>
      refine ih (sound_perform sound performed).1 (announced_perform sound announced other performed) ?_
      simpa [paired] using isPaired

/-- A call that only resolves finds the stored status, and the other calls publish what they reconcile. -/
def FindsStored (state : UserState) : PresenceEvent → Prop
  | .call (.resolve now _) _ =>
    state.getUserPresenceSnapshot.map UserPresence.status = some (state.resolveUserPresence now).status
  | .call call reached => paired (call.effects.take reached)
  | _ => True

instance (state : UserState) : DecidablePred (FindsStored state)
  | .call (.resolve ..) _ => inferInstanceAs (Decidable (_ = _))
  | .call (.register ..) _ | .call (.refresh ..) _ | .call (.update ..) _ | .call (.remove ..) _ =>
    inferInstanceAs (Decidable (_ = true))
  | .refreshUserSessions .. | .expire _ => isTrue trivial

theorem announced_step {event : PresenceEvent} (finds : FindsStored state event) :
    Announced (state.step event) := by
  cases event with
  | refreshUserSessions | expire => exact announced
  | call call reached =>
    have fresh := sound.fresh
    cases call with
    | resolve now reconciling =>
      cases reached with
      | zero => exact announced
      | succ reached =>
        simp only [step, Call.effects, List.take_succ_cons, performAll]
        split
        · exact announced
        · next resolved performed =>
          have quiet := (changed_of_reconcile performed).trans (decide_eq_false (not_not.mpr finds))
          have kept := (announced_reconcile fresh announced performed).1 quiet
          exact announced_performAll (sound_perform fresh performed).1 kept (by cases reached <;> simp [paired])
    | _ => exact announced_performAll fresh announced finds

end

/-- If every call of `ResolveUsersPresence` finds the stored status, then after every call the last event carries the
status and the version that are stored. -/
theorem stored_presence_announced {events : List PresenceEvent} (run : presenceMachine.run {} events = some state)
    (along : presenceMachine.Along FindsStored {} events) : Announced state := by
  have start : Sound {} ∧ Announced {} := ⟨sound_empty, rfl⟩
  refine (@Machine.invariant_along _ _ _ _ (fun state => Sound state ∧ Announced state)
    (fun _ event _ kept finds step => ?_) _ _ _ run along start).2
  cases step
  exact ⟨(sound_step kept.1 event).1, announced_step kept.1 kept.2 finds⟩

def removedSession : List PresenceEvent :=
  [.call (.register "phone" none 1 10 5 7) 6, .call (.resolve 2 8) 2, .call (.remove "phone" 3 9) 3]

theorem removed_session_announced : ∃ state, presenceMachine.run {} removedSession = some state ∧
    state.events = [(.offline, 9), (.online, 7)] ∧ Announced state := by
  refine Machine.exists_run rfl fun run => ⟨by decide, ?_⟩
  exact stored_presence_announced run (by decide)

/-- The session has expired when the presence is resolved: offline is stored, and the last event says online. -/
theorem lapsed_session_unannounced : ∃ state, presenceMachine.run {} [.call (.register "phone" none 1 10 5 7) 6,
    .call (.resolve 20 8) 2] = some state ∧ state.snapshotHash.map (·.stamp) = some (.offline, 8) ∧
      state.events = [(.online, 7)] ∧ ¬ Announced state :=
  ⟨_, rfl, by decide, by decide, by unfold Announced; decide⟩

end Cordis.Presence
