import Cordis.Kafka.Tracking

/-! # The committer, revocations and the shutdown

These commit the offsets and stop the workers. They move no records, so the order of a session is
theirs to keep only where a worker is stopped and where the committed offset moves, and it moves to
completed records of the last worker.
-/

namespace Cordis.Kafka

open PartitionNode Option

namespace PartitionNode

variable {cfg : Config} {log : PartitionLog} {node next : PartitionNode} {record : Record}

theorem exists_commitRecords (node : PartitionNode) (record : Record) (result : CommitResult) :
    ∃ committed, node.commitRecords record result = { node with committed } ∧
      (committed = node.committed ∨ committed = record.offset + 1) := by
  match result with
  | .ok => exact ⟨_, rfl, .inr rfl⟩
  | .failed true => exact ⟨_, rfl, .inr rfl⟩ -- the broker took the offset, only its answer was lost
  | .failed false => exact ⟨_, rfl, .inl rfl⟩

namespace InOrder

variable (order : node.InOrder log)

include order

/-- A commit of an owned record does not go back behind the session it comes from. -/
theorem setCommitted (owned : node.Owned record) {committed : ℕ}
    (moved : committed = node.committed ∨ committed = record.offset + 1) :
    ({ node with committed } : PartitionNode).InOrder log := by
  rcases moved with rfl | rfl
  · exact order
  · refine { order with base := fun worker present => ?_ }
    obtain ⟨held, found, member⟩ := owned
    cases present.symm.trans found
    have recorded := order.recorded _ worker present
    have known := (worker.finished_isPrefix_line.trans recorded.initial).subset member
    exact (PartitionLog.mem_since.mp known).2.trans (Nat.le_succ _)

theorem acknowledge (count : ℕ) : (node.acknowledge cfg count).InOrder log := by
  unfold PartitionNode.acknowledge
  split_ifs
  · apply InOrder.setCommitBackpressure
    exact { order with }
  · exact { order with }

end InOrder

theorem Keeps.commitRecords (kept : node.Keeps log next) (owned : next.Owned record) (result : CommitResult) :
    node.Keeps log (next.commitRecords record result) := by
  obtain ⟨committed, same, moved⟩ := next.exists_commitRecords record result
  rw [same]
  exact ⟨{ kept.1 with }, fun order => (kept.2 order).setCommitted owned moved⟩

theorem Accounted.keeps (accounted : node.Accounted) : node.Keeps log node := ⟨accounted, fun order => order⟩

/-- A revocation moves on. -/
theorem Keeps.setRevoke (kept : node.Keeps log next) {old revoke : Revoke} (current : next.revoke = old)
    (unassigned : next.worker = none)
    (owned : ∀ record, revoke.record = some record → old.record = some record ∨ next.Owned record)
    (target : ∀ id, revoke.target = some id → old.target = some id)
    (quiet : revoke.Quiet → old.Quiet ∨ next.heap.All fun _ worker => worker.active = false)
    (dropped : revoke.Dropped → old.Dropped ∨ next.pendingOffset = none ∧ next.flush = .idle) :
    node.Keeps log { next with revoke } := by
  obtain ⟨accounted, inOrder⟩ := kept
  subst current
  refine ⟨{ accounted with
    assigned := ?_, owned := ?_, revoked := fun id held => accounted.revoked id (target id held)
    quiet := fun alive _ silent => (quiet silent).elim (accounted.quiet alive unassigned) id
    dropped := fun alive _ gone => (dropped gone).elim (accounted.dropped alive unassigned) id },
    fun order => { inOrder order with }⟩
  · intro id assigned
    cases unassigned.symm.trans assigned
  · rintro record (pending | flushing | revoking | stopping)
    · exact accounted.owned record (.inl pending)
    · exact accounted.owned record (.inr (.inl flushing))
    · exact (owned record revoking).elim (fun held => accounted.owned record (.inr (.inr (.inl held)))) id
    · exact accounted.owned record (.inr (.inr (.inr stopping)))

/-- The shutdown moves on; the node stays stopped. -/
theorem Keeps.setShutdown (kept : node.Keeps log next) {old shutdown : Shutdown} (current : next.shutdown = old)
    (goes : old ≠ .running)
    (owned : ∀ record, shutdown.record = some record → old.record = some record ∨ next.Owned record)
    (target : ∀ id, shutdown.target = some id → old.target = some id) : node.Keeps log { next with shutdown } := by
  obtain ⟨accounted, inOrder⟩ := kept
  subst current
  refine ⟨{ accounted with
    running := fun alive => (goes (accounted.running alive)).elim, owned := ?_
    stopping := fun id held => accounted.stopping id (target id held) }, fun order => { inOrder order with }⟩
  rintro record (pending | flushing | revoking | stopping)
  · exact accounted.owned record (.inl pending)
  · exact accounted.owned record (.inr (.inl flushing))
  · exact accounted.owned record (.inr (.inr (.inl revoking)))
  · exact (owned record stopping).elim (fun held => accounted.owned record (.inr (.inr (.inr held)))) id

namespace Accounted

variable (accounted : node.Accounted)

include accounted

variable {event : PartitionEvent}

/-- A flush that has failed leaves its record pending, unless the node is stopped. -/
theorem flushFailed {count : ℕ} (flushing : node.flush = .committing record count) {committed : ℕ} :
    (if node.cancelled then ({ node with flush := .idle, committed } : PartitionNode)
      else { node with flush := .idle, committed }.requeue record).Accounted := by
  have owned : node.Owned record := accounted.owned record (.inr (.inl (by rw [flushing]; rfl)))
  have busy : node.stopped = false → node.worker = none → ¬ node.revoke.Dropped := by
    intro alive unassigned dropped
    cases (accounted.dropped alive unassigned dropped).2.symm.trans flushing
  split_ifs with cancelled
  · have stopped := accounted.cancelled cancelled
    refine { accounted with
      owned := fun _ => accounted.owned_idle, dropped := fun alive => ?_, counted := fun alive => ?_,
      marked := fun alive => ?_ }
    all_goals cases stopped.symm.trans alive
  · have offered := @offer node accounted record owned busy node.uncommitted
    exact { offered with
      owned := fun _ => offered.owned_idle
      dropped := fun alive unassigned dropped => (busy alive unassigned dropped).elim
      counted := fun _ _ => laterOffset_ne_none, marked := fun _ _ => .inl laterOffset_ne_none }

theorem stepCommitter (step : node.stepCommitter cfg event = some next) : node.Keeps log next := by
  cases event with simp only [stepCommitter] at step
  | flushTake =>
    split at step
    · next record _ pending =>
      split_ifs at step
      cases step
      refine ⟨{ accounted with owned := ?_, dropped := ?_, counted := ?_, marked := ?_ }, fun order => { order with }⟩
      · rintro other (none | taken | rest)
        · cases none
        · cases taken
          exact accounted.owned record (.inl pending)
        · exact accounted.owned other (.inr (.inr rest))
      · intro alive unassigned dropped
        cases (accounted.dropped alive unassigned dropped).1.symm.trans pending
      · exact fun _ more => (lt_irrefl _ more).elim
      · exact fun _ _ => .inr (by rintro ⟨⟩)
    · cases step
  | flushAbandon =>
    split at step
    · split_ifs at step with cancelled
      cases step
      have stopped := accounted.cancelled cancelled
      refine ⟨{ accounted with
        owned := fun _ => accounted.owned_idle, dropped := fun alive => ?_, counted := fun alive => ?_,
        marked := fun alive => ?_ }, fun order => { order with }⟩
      all_goals cases stopped.symm.trans alive
    · cases step
  | flushCommit =>
    split at step <;> cases step
    next record count flushing =>
      refine ⟨{ accounted with owned := ?_, dropped := ?_, counted := ?_, marked := ?_ }, fun order => { order with }⟩
      · rintro other (pending | taken | rest)
        · exact accounted.owned other (.inl pending)
        · exact accounted.owned other (.inr (.inl (flushing ▸ taken)))
        · exact accounted.owned other (.inr (.inr rest))
      · intro alive unassigned dropped
        cases (accounted.dropped alive unassigned dropped).2.symm.trans flushing
      · exact fun alive more => accounted.counted alive (flushing ▸ more)
      · exact fun _ _ => .inr (by rintro ⟨⟩)
  | flushReturn result =>
    split at step
    · next record count flushing =>
      have owned : node.Owned record := accounted.owned record (.inr (.inl (by rw [flushing]; rfl)))
      obtain ⟨committed, same, moved⟩ := ({ node with flush := .idle } : PartitionNode).exists_commitRecords record result
      have inOrder (order : node.InOrder log) : ({ node with flush := .idle, committed } : PartitionNode).InOrder log :=
        { order.setCommitted owned moved with }
      rw [same] at step
      cases result with
      | ok =>
        cases step
        exact ⟨accounted.acknowledge flushing, fun order => (inOrder order).acknowledge count⟩
      | failed applied =>
        cases step
        refine ⟨accounted.flushFailed flushing, fun order => ?_⟩
        split_ifs
        · exact inOrder order
        · exact { inOrder order with }
    · cases step
  | committerExit =>
    split_ifs at step with told
    cases step
    exact ⟨{ accounted with committerDone := fun _ => accounted.cancelled told.1 }, fun order => { order with }⟩
  | _ => cases step

theorem beginRevoke (free : node.revoke = .idle) (commit : Bool) : node.Keeps log
    { node.removeWorkers with revoke := .removed node.worker commit, unfetched := [] } := by
  rcases eq_none_or_eq_some node.worker with unassigned | ⟨id, assigned⟩
  · have unchanged : node.removeWorkers = node := by simp only [removeWorkers, unassigned]
    rw [unchanged, unassigned]
    have begun : node.Keeps log { node with revoke := .removed none commit } :=
      accounted.keeps.setRevoke free unassigned (by rintro _ ⟨⟩) (by rintro _ ⟨⟩) (fun _ => .inl trivial) (by rintro ⟨⟩)
    exact ⟨{ begun.1 with }, fun order => { order with serving := fun id assigned => by cases unassigned.symm.trans assigned }⟩
  · have removed : node.removeWorkers = { node with worker := none, queuedRecords := [], pauseReasons := ∅ } := by
      simp only [removeWorkers, assigned]
    rw [removed, assigned]
    refine ⟨{ accounted with
      assigned := by rintro _ ⟨⟩, owned := ?_, revoked := ?_, quiet := by rintro _ _ ⟨⟩, dropped := by rintro _ _ ⟨⟩,
      paused := by rintro _ ⟨⟩, unpaused := fun _ => rfl },
      fun order => { order with serving := by rintro _ ⟨⟩, unqueued := fun _ => rfl }⟩
    · rintro record (pending | flushing | revoking | stopping)
      · exact accounted.owned record (.inl pending)
      · exact accounted.owned record (.inr (.inl flushing))
      · cases revoking
      · exact accounted.owned record (.inr (.inr (.inr stopping)))
    · rintro _ ⟨⟩
      exact (accounted.assigned id assigned).1

/-- Cancelling or silencing a worker that is no longer assigned. -/
theorem disturb (unassigned : node.worker = none) {id : ℕ} {worker : Worker} (present : node.heap id = some worker)
    {cancelled active : Bool} (silenced : active = true → worker.active = true) :
    node.Keeps log (node.setWorker id { worker with cancelled, active }) := by
  refine ⟨accounted.moveWorker present silenced, fun order => ?_⟩
  refine order.setWorker present rfl rfl (List.prefix_refl worker.line) fun assigned => ?_
  cases unassigned.symm.trans assigned

/-- A revocation that has collected its record forgets the offsets of the partition. -/
theorem drop {record : Option Record} {commit : Bool} (current : node.revoke = .collected record commit)
    (idle : node.flush = .idle) (revoke : Revoke) (same : ∀ other, revoke.record = some other → record = some other)
    (target : ∀ id, revoke.target ≠ some id) : node.Keeps log { node.dropPartitions with revoke } := by
  have unassigned := accounted.unassigned (by rw [current]; rintro ⟨⟩)
  have dropped : node.Keeps log node.dropPartitions := by
    refine ⟨{ accounted with
      owned := ?_, dropped := fun _ _ _ => ⟨rfl, idle⟩, counted := by rintro _ ⟨⟩, marked := by rintro _ ⟨⟩,
      paused := fun id assigned => by cases unassigned.symm.trans assigned }, fun order => { order with }⟩
    rintro other (none | rest)
    · cases none
    · exact accounted.owned other (.inr rest)
  exact dropped.setRevoke current unassigned (fun other held => .inl (same other held))
    (fun id held => (target id held).elim) (fun _ => .inl trivial) fun _ => .inr ⟨rfl, idle⟩

theorem stepRevoke (step : node.stepRevoke event = some next) : node.Keeps log next := by
  have busy {revoke : Revoke} (current : node.revoke = revoke) (goes : revoke ≠ .idle) : node.worker = none :=
    accounted.unassigned (current ▸ goes)
  cases event with simp only [stepRevoke] at step
  | revoke commit =>
    split_ifs at step with free
    cases step
    exact accounted.beginRevoke free commit
  | revokeCancel =>
    split at step
    · next id commit current =>
      obtain ⟨_, cancelled, rfl⟩ := map_eq_some_iff.mp step
      obtain ⟨worker, present, rfl⟩ := map_eq_some_iff.mp cancelled
      have unassigned := busy current (by rintro ⟨⟩)
      exact (accounted.disturb unassigned present fun active => active).setRevoke current unassigned (by rintro _ ⟨⟩)
        (fun _ target => target) (by rintro ⟨⟩) (by rintro ⟨⟩)
    · cases step
  | revokeDeactivate =>
    split at step
    · next id commit current =>
      obtain ⟨_, silenced, rfl⟩ := map_eq_some_iff.mp step
      obtain ⟨worker, present, rfl⟩ := map_eq_some_iff.mp silenced
      have unassigned := busy current (by rintro ⟨⟩)
      obtain rfl := accounted.revoked id (by rw [current]; rfl)
      have silenced : node.Keeps log (node.setWorker node.assignments { worker with active := false }) :=
        accounted.disturb unassigned present (by rintro ⟨⟩)
      exact silenced.setRevoke current unassigned (by rintro _ ⟨⟩) (fun _ target => target)
        (fun _ => .inr (silenced.1.all_inactive (Pool.set_self ..) rfl)) (by rintro ⟨⟩)
    · cases step
  | revokeCollect =>
    split at step
    · next commit current =>
      cases step
      exact accounted.keeps.setRevoke current (busy current (by rintro ⟨⟩)) (by rintro _ ⟨⟩) (by rintro _ ⟨⟩)
        (fun _ => .inl trivial) (by rintro ⟨⟩)
    · next id commit current =>
      cases step
      obtain rfl := accounted.revoked id (by rw [current]; rfl)
      exact accounted.keeps.setRevoke current (busy current (by rintro ⟨⟩))
        (fun record watermark => .inr (accounted.owned_completedBy watermark)) (by rintro _ ⟨⟩)
        (fun _ => .inl trivial) (by rintro ⟨⟩)
    · cases step
  | revokeDrop =>
    split at step
    · next record current idle =>
      cases step
      exact accounted.drop current idle (.calling record) (fun _ same => same) (by rintro _ ⟨⟩)
    · next record commit _ current idle =>
      cases step
      exact accounted.drop current idle .idle (by rintro _ ⟨⟩) (by rintro _ ⟨⟩)
    · cases step
  | revokeCommit =>
    split at step <;> cases step
    next record current =>
      exact accounted.keeps.setRevoke current (busy current (by rintro ⟨⟩)) (fun _ held => .inl held) (by rintro _ ⟨⟩)
        (fun _ => .inl trivial) fun _ => .inl trivial
  | revokeReturn result =>
    split at step <;> cases step
    next record current =>
      have owned : node.Owned record := accounted.owned record (.inr (.inr (.inl (by rw [current]; rfl))))
      have finished : node.Keeps log { node with revoke := .idle } :=
        accounted.keeps.setRevoke current (busy current (by rintro ⟨⟩)) (by rintro _ ⟨⟩) (by rintro _ ⟨⟩)
          (fun _ => .inl trivial) fun _ => .inl trivial
      exact finished.commitRecords owned result
  | _ => cases step

theorem stepShutdown (step : node.stepShutdown event = some next) : node.Keeps log next := by
  have begun {shutdown : Shutdown} (current : node.shutdown = shutdown) (goes : shutdown ≠ .running) :
      node.stopped = true ∧ node.worker = none := accounted.shuttingDown (current ▸ goes)
  cases event with simp only [stepShutdown] at step
  | stop =>
    split_ifs at step with running
    cases step
    refine ⟨{ accounted with
      assigned := by rintro _ ⟨⟩, cancelled := fun _ => rfl, committerDone := fun _ => rfl, running := by rintro ⟨⟩
      owned := ?_, stopping := fun id assigned => (accounted.assigned id assigned).1, quiet := by rintro ⟨⟩
      dropped := by rintro ⟨⟩, counted := by rintro ⟨⟩, marked := by rintro ⟨⟩, paused := by rintro _ ⟨⟩
      unpaused := fun _ => rfl }, fun order => { order with serving := by rintro _ ⟨⟩, unqueued := fun _ => rfl }⟩
    rintro record (pending | flushing | revoking | stopping)
    · exact accounted.owned record (.inl pending)
    · exact accounted.owned record (.inr (.inl flushing))
    · exact accounted.owned record (.inr (.inr (.inl revoking)))
    · cases stopping
  | stopCancel =>
    split at step <;> cases step
    next worker current =>
      have cancelled : node.Keeps log { node with cancelled := true } :=
        ⟨{ accounted with cancelled := fun _ => (begun current (by rintro ⟨⟩)).1 }, fun order => { order with }⟩
      exact cancelled.setShutdown current (by rintro ⟨⟩) (by rintro _ ⟨⟩) fun _ target => target
  | stopWorkerCancel | stopWorkerDeactivate =>
    split at step
    · next id current =>
      obtain ⟨_, stops, rfl⟩ := map_eq_some_iff.mp step
      obtain ⟨worker, present, rfl⟩ := map_eq_some_iff.mp stops
      obtain ⟨_, unassigned⟩ := begun current (by rintro ⟨⟩)
      exact (accounted.disturb unassigned present (by simp)).setShutdown current (by rintro ⟨⟩) (by rintro _ ⟨⟩)
        fun _ target => target
    · cases step
  | stopCommitter =>
    split_ifs at step
    split at step
    · next current =>
      cases step
      exact accounted.keeps.setShutdown current (by rintro ⟨⟩) (by rintro _ ⟨⟩) (by rintro _ ⟨⟩)
    · next worker current =>
      cases step
      exact accounted.keeps.setShutdown current (by rintro ⟨⟩) (by rintro _ ⟨⟩) fun _ target => target
    · cases step
  | stopCollect expired =>
    split at step
    · next worker current =>
      split at step <;> cases step
      · next record watermark =>
        obtain ⟨id, rfl, watermark⟩ := bind_eq_some_iff.mp watermark
        obtain rfl := accounted.stopping id (by rw [current]; rfl)
        refine accounted.keeps.setShutdown current (by rintro ⟨⟩) ?_ (by rintro _ ⟨⟩)
        rintro _ ⟨⟩
        exact .inr (accounted.owned_completedBy watermark)
      · exact accounted.keeps.setShutdown current (by rintro ⟨⟩) (by rintro _ ⟨⟩) (by rintro _ ⟨⟩)
    · cases step
  | stopCommit =>
    split at step <;> cases step
    next record current =>
      exact accounted.keeps.setShutdown current (by rintro ⟨⟩) (fun _ held => .inl held) (by rintro _ ⟨⟩)
  | stopReturn result =>
    split at step <;> cases step
    next record current =>
      have owned : node.Owned record := accounted.owned record (.inr (.inr (.inr (by rw [current]; rfl))))
      have finished : node.Keeps log { node with shutdown := .done } :=
        accounted.keeps.setShutdown current (by rintro ⟨⟩) (by rintro _ ⟨⟩) (by rintro _ ⟨⟩)
      exact finished.commitRecords owned result
  | _ => cases step

end Accounted

end PartitionNode

end Cordis.Kafka
