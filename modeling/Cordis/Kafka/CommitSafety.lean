import Cordis.Kafka.Lifecycle

/-! # Commits cover only completed records

What remains is the client's side: a new session starts when nobody holds an offset of the one
before, and polled records join the end of the session. The order breaks when the poll loop holds a
batch across a rebalance: the batch of the old session reaches the new worker ahead of the records
fetched again from the committed offset.
-/

namespace Cordis.Kafka

open List

namespace PartitionNode

variable {cfg : Config} {log : PartitionLog} {node next : PartitionNode} {event : PartitionEvent} {record : Record}

/-- The poll loop does not enqueue a record to a worker that was assigned after the record was
polled. -/
def InSession (node : PartitionNode) : PartitionEvent → Prop
  | .enqueue => ∀ id ∈ node.worker, node.polledFrom = id
  | _ => True

instance (node : PartitionNode) (event : PartitionEvent) : Decidable (node.InSession event) := by
  cases event <;> dsimp only [InSession] <;> infer_instance

namespace Accounted

variable (accounted : node.Accounted)

include accounted

theorem enqueue (record : Record) : (node.enqueue cfg record).Accounted := by
  unfold PartitionNode.enqueue
  split
  · exact accounted
  · next id assigned =>
    split
    · exact accounted
    · next worker present =>
      have queued (queuedRecords : List Record) :
          ({ node with queuedRecords }.pauseLocked .queue).Accounted := by
        have grown : ({ node with queuedRecords } : PartitionNode).Accounted := { accounted with }
        rw [pauseLocked_eq]
        exact grown.setPause assigned (by simp)
      split_ifs
      · exact accounted
      · exact queued _
      · exact accounted.moveWorker present fun active => active
      · exact queued _

/-- A record of the current session joins its end; without a worker it is dropped. -/
theorem inOrder_enqueue (order : node.InOrder log) {rest : List Record} (polled : node.polled = record :: rest)
    (inSession : node.InSession .enqueue) : ({ node with polled := rest }.enqueue cfg record).InOrder log := by
  rcases Option.eq_none_or_eq_some node.worker with unassigned | ⟨id, assigned⟩
  · rw [enqueue_of_none { node with polled := rest } unassigned]
    exact { order with serving := fun id current => by cases unassigned.symm.trans current }
  · obtain ⟨latest, _, alive⟩ := accounted.assigned id assigned
    obtain ⟨worker, present, live, _⟩ := order.serving id assigned
    have current := (inSession id assigned).trans latest
    have batch : node.ownPolled = record :: rest := by rw [ownPolled, if_pos current, polled]
    have queued (queuedRecords : List Record) (grown : queuedRecords = node.queuedRecords ++ [record]) :
        ({ node with polled := rest, queuedRecords }.pauseLocked .queue).InOrder log := by
      rw [pauseLocked_eq]
      refine { order with serving := fun id assigned => ?_, unqueued := fun unassigned => ?_ }
      · obtain ⟨held, found, live, session⟩ := order.serving id assigned
        refine ⟨held, found, live, ?_⟩
        rw [← session, grown, batch, ownPolled, if_pos current]
        simp
      · cases assigned.symm.trans unassigned
    rw [enqueue_of_some { node with polled := rest } assigned present alive]
    split_ifs with empty room
    · exact queued _ rfl
    · have none : node.queuedRecords = [] := not_not.mp empty
      refine order.advance assigned present live.2.2 ?_
      rw [Worker.line_push live.2.2, batch, ownPolled, if_pos current, none]
      simp
    · have none : node.queuedRecords = [] := not_not.mp empty
      exact queued _ (by rw [none]; rfl)

/-- A new worker starts when nobody holds an offset of the one before, and nothing is counted. -/
theorem assign (free : node.revoke = .idle) : node.Keeps log (node.assign log) := by
  unfold PartitionNode.assign
  split_ifs with refused
  · exact ⟨accounted, fun order => order⟩
  · obtain ⟨alive, unassigned⟩ := not_or.mp refused
    have alive : node.stopped = false := Bool.eq_false_iff.mpr alive
    have unassigned : node.worker = none := not_not.mp unassigned
    have quiet := accounted.quiet alive unassigned (free ▸ trivial)
    obtain ⟨none, idle⟩ := accounted.dropped alive unassigned (free ▸ trivial)
    have running := accounted.running alive
    refine ⟨{ accounted with
      latest := ?_, watermark := accounted.watermark.set (by rintro _ ⟨⟩), assigned := ?_, owned := ?_, revoked := ?_
      stopping := ?_, quiet := by rintro _ ⟨⟩, dropped := by rintro _ ⟨⟩, paused := ?_, unpaused := by rintro ⟨⟩ },
      fun order => { order with
        recorded := ?_, serving := ?_, unqueued := by rintro ⟨⟩
        polledFrom := order.polledFrom.trans (Nat.le_succ _), base := ?_ }⟩
    · refine .set (quiet.mono fun id worker _ silent active => ?_) fun _ => rfl
      cases silent.symm.trans active
    · rintro id ⟨⟩
      exact ⟨rfl, free, alive⟩
    · rintro record (pending | flushing | revoking | stopping)
      · cases none.symm.trans pending
      · rw [idle] at flushing
        cases flushing
      · rw [free] at revoking
        cases revoking
      · rw [running] at stopping
        cases stopping
    · intro id target
      rw [free] at target
      cases target
    · intro id target
      rw [running] at target
      cases target
    · intro id _
      rw [accounted.unpaused unassigned]
      refine iff_of_false (Finset.notMem_empty _) fun marked => ?_
      exact (accounted.marked alive marked).elim (· none) (· idle)
    · exact order.recorded.set ⟨List.nil_prefix, by rintro _ ⟨⟩⟩
    · rintro id ⟨⟩
      refine ⟨_, Pool.set_self .., ⟨rfl, rfl, by rintro ⟨⟩⟩, ?_⟩
      have foreign : node.polledFrom ≠ node.assignments + 1 := by
        have := order.polledFrom
        omega
      rw [ownPolled, if_neg foreign, order.unqueued unassigned]
      rfl
    · intro worker present
      cases (Pool.set_self ..).symm.trans present
      exact le_rfl

end Accounted

theorem InOrder.poll (order : node.InOrder log) (empty : node.polled = []) (count : ℕ) :
    ({ node with
      polled := node.unfetched.take count
      unfetched := node.unfetched.drop count
      polledFrom := node.assignments } : PartitionNode).InOrder log := by
  refine { order with serving := fun id assigned => ?_, polledFrom := le_rfl }
  obtain ⟨worker, present, live, session⟩ := order.serving id assigned
  refine ⟨worker, present, live, ?_⟩
  have before : node.ownPolled = [] := by
    unfold ownPolled
    split_ifs <;> simp [empty]
  rw [before, nil_append] at session
  rw [← session, ownPolled, if_pos rfl, take_append_drop]

namespace Accounted

variable (accounted : node.Accounted)

include accounted

theorem stepClient (step : node.stepClient cfg log event = some next) :
    next.Accounted ∧ (node.InSession event → node.InOrder log → next.InOrder log) := by
  cases event with simp only [PartitionNode.stepClient] at step
  | assign =>
    split_ifs at step with free
    cases step
    exact (accounted.assign free).imp_right fun inOrder _ => inOrder
  | poll count =>
    split_ifs at step with ready
    cases step
    exact ⟨{ accounted with }, fun _ order => order.poll ready.1 count⟩
  | enqueue =>
    split at step <;> cases step
    next record rest polled =>
      have popped : ({ node with polled := rest } : PartitionNode).Accounted := { accounted with }
      exact ⟨popped.enqueue record, fun inSession order => accounted.inOrder_enqueue order polled inSession⟩
  | _ => cases step

/-- Whatever happens is accounted for; the order needs the batches to be enqueued in their session. -/
theorem step (step : (partitionMachine cfg log).step node event = some next) :
    next.Accounted ∧ (node.InSession event → node.InOrder log → next.InOrder log) := by
  have always (kept : node.Keeps log next) :
      next.Accounted ∧ (node.InSession event → node.InOrder log → next.InOrder log) :=
    kept.imp_right fun inOrder _ => inOrder
  rcases step_cases step with client | worker | committer | revoke | shutdown
  · exact accounted.stepClient client
  · exact always (accounted.stepWorker worker)
  · exact always (accounted.stepCommitter committer)
  · exact always (accounted.stepRevoke revoke)
  · exact always (accounted.stepShutdown shutdown)

end Accounted

theorem holds_of_commitCall (call : node.commitCall event = some record) : node.Holds record := by
  cases event with simp only [commitCall] at call
  | flushCommit =>
    split at call <;> cases call
    next flushing => exact .inr (.inl (by rw [flushing]; rfl))
  | revokeCommit =>
    split at call <;> cases call
    next revoking => exact .inr (.inr (.inl (by rw [revoking]; rfl)))
  | stopCommit =>
    split at call <;> cases call
    next stopping => exact .inr (.inr (.inr (by rw [stopping]; rfl)))
  | _ => cases call

theorem inOrder_start (committed : ℕ) : ({ committed } : PartitionNode).InOrder log where
  recorded := Pool.all_empty _
  serving := by rintro _ ⟨⟩
  unqueued _ := rfl
  polledFrom := le_rfl
  base := by rintro _ ⟨⟩

end PartitionNode

/-- In every run in which no record is enqueued to a worker assigned after it was polled, each call
of `CommitRecords`, by the committer, by a revocation or by the shutdown, is for an offset up to
which every record from the committed offset on has been completed by a worker. -/
theorem commit_covers_completed {cfg : Config} {log : PartitionLog} {committed : ℕ}
    {events : List PartitionEvent} {node : PartitionNode} {event : PartitionEvent} {record : Record}
    (run : (partitionMachine cfg log).run { committed } events = some node)
    (inSession : (partitionMachine cfg log).Along PartitionNode.InSession { committed } events)
    (call : node.commitCall event = some record) : node.CommitSafe log record := by
  obtain ⟨accounted, inOrder⟩ := @Machine.invariant_along _ _ _ _
    (fun node : PartitionNode => node.Accounted ∧ node.InOrder log)
    (fun _ _ _ inv inSession step => (inv.1.step step).imp_right fun inOrder => inOrder inSession inv.2)
    _ _ _ run inSession ⟨PartitionNode.accounted_start committed, PartitionNode.inOrder_start committed⟩
  exact inOrder.commitSafe (accounted.owned record (PartitionNode.holds_of_commitCall call))

/-- Three records, the last one from a later leader epoch. -/
def shortLog : PartitionLog := ⟨[⟨0, 1⟩, ⟨1, 1⟩, ⟨2, 2⟩], by decide⟩

/-- A worker completes the first record, retries the second, and is revoked; the next worker starts
over at the committed offset, and its first commit is covered. -/
theorem reassigned_worker_commit_covered :
    ∃ node, (partitionMachine {} shortLog).run { committed := 0 }
        [.assign, .poll 2, .enqueue, .enqueue, .receive 1, .handled 1 .ok, .mark 1, .afterProcessed 1,
          .receive 1, .handled 1 .retryable, .pause 1, .revoke true, .revokeCancel, .retryCancelled 1,
          .revokeDeactivate, .revokeCollect, .revokeDrop, .revokeCommit, .revokeReturn .ok, .assign,
          .poll 1, .enqueue, .receive 2, .handled 2 .permanent, .mark 2, .flushTake] = some node ∧
      node.commitCall .flushCommit = some ⟨1, 1⟩ ∧ node.CommitSafe shortLog ⟨1, 1⟩ := by
  exact Machine.exists_run rfl fun run => ⟨rfl, @commit_covers_completed {} shortLog 0 _ _ .flushCommit _ run (by decide) rfl⟩

/-- The poll loop holds a batch while the partition is revoked and assigned again, and then enqueues
it to the new worker. The new worker completes the second record and its offset is committed, while
the first record, which the old worker had not completed, is still to be fetched again. -/
theorem stale_batch_committed :
    ∃ node, (partitionMachine {} shortLog).run { committed := 0 }
        [.assign, .poll 1, .enqueue, .poll 1, .revoke true, .revokeCancel, .revokeDeactivate, .revokeCollect,
          .revokeDrop, .assign, .enqueue, .receive 2, .handled 2 .ok, .mark 2, .flushTake] = some node ∧
      node.commitCall .flushCommit = some ⟨1, 1⟩ ∧ node.committed = 0 ∧
      ⟨0, 1⟩ ∈ shortLog.records ∧ ⟨0, 1⟩ ∉ node.completed ∧ ¬ node.CommitSafe shortLog ⟨1, 1⟩ := by
  refine ⟨_, rfl, rfl, rfl, by decide, by decide, fun safe => ?_⟩
  have completed := safe ⟨0, 1⟩ (by decide) (by decide) (by decide)
  revert completed
  decide

end Cordis.Kafka
