import TeamInbox.Broadcast.Progress

/-!
# TeamInbox.Broadcast.Finalisation — a broadcast finishes once, with the outcome of its leaves

A closed leaf that is not sent never becomes sent, and a sent one stays so; a purge moves both into counters.
So the number of recipients of a drained job that were not sent to (`unsent`) is constant, and the progress a
finalizing call has read still tells the outcome when it writes.  Only a canceled job has canceled leaves,
which `deriveBulkJobOutcome` does not look at.
-/

namespace TeamInbox.Broadcast

open Lib Tenant

/-- Every leaf of the job is sent, or was when a purge counted it. -/
def AllSent (s : Tenant) (j : ℕ) : Prop :=
  (∀ r ∈ s.rows, r.bulkJobId = some j → r.status = .sent) ∧
    ∀ job, s.jobs j = some job → job.purgedFailed = 0 ∧ job.purgedCanceled = 0 ∧ job.purgedSkipped = 0

def FinishedDrained (s : Tenant) : Prop :=
  ∀ j job, s.jobs j = some job → job.status.finished = true →
    ∀ r ∈ s.rows, r.bulkJobId = some j → r.status.isOpen = false

/-- A finished job is `completed` exactly when every recipient was sent to. -/
def FinishedTruthful (s : Tenant) : Prop :=
  ∀ j job, s.jobs j = some job → job.status.finished = true → (job.status = .completed ↔ AllSent s j)

def FinishedKept (s : Tenant) (_ : ScheduledAction) (s' : Tenant) : Prop :=
  ∀ j job, s.jobs j = some job → job.status.finished = true →
    ∃ job', s'.jobs j = some job' ∧ job'.status = job.status

/-- A job and all its leaves move to a new time, or nothing does. -/
def MovedTogether (s : Tenant) (a : ScheduledAction) (s' : Tenant) : Prop :=
  ∀ j scheduledAt, a = .reschedule j scheduledAt → s' = s ∨ ∃ job, s.jobs j = some job ∧
    s' = (s.updateRows (·.leafOf j) (·.rescheduled scheduledAt)).setJob j { job with scheduledAt := scheduledAt }

/-! ### What was not sent -/

/-- The recipients of a job that were not sent to. -/
def unsent (s : Tenant) (j : ℕ) (job : BulkJob) : ℕ :=
  s.rows.countP (fun r => r.leafOf j && !decide (r.status = .sent)) + job.purgedFailed + job.purgedCanceled +
    job.purgedSkipped

section Unsent

variable {cfg : BulkConfig} {s s' : Tenant} {a : ScheduledAction}

theorem allSent_iff {j : ℕ} {job : BulkJob} (hjob : s.jobs j = some job) : AllSent s j ↔ unsent s j job = 0 := by
  have hrows : s.rows.countP (fun r => r.leafOf j && !decide (r.status = .sent)) = 0 ↔
      ∀ r ∈ s.rows, r.bulkJobId = some j → r.status = .sent := by
    simp [List.countP_eq_zero, ScheduledMessage.leafOf]
  have hjobs : (∀ job, s.jobs j = some job → job.purgedFailed = 0 ∧ job.purgedCanceled = 0 ∧ job.purgedSkipped = 0) ↔
      job.purgedFailed = 0 ∧ job.purgedCanceled = 0 ∧ job.purgedSkipped = 0 := by
    simp [hjob]
  unfold AllSent unsent
  rw [← hrows, hjobs]
  omega

theorem RowMove.closed_sent_iff (h : JobInv s) {r r' : ScheduledMessage} (hr : r ∈ s.rows) (hmove : RowMove s a r r')
    (hclosed : r.status.isOpen = false) : r'.status = .sent ↔ r.status = .sent := by
  refine ⟨fun hsent => ?_, ConservedInv.sent_stays h hr hmove⟩
  have hnot : r.status ≠ .processing := by
    intro hstatus
    rw [hstatus] at hclosed
    contradiction
  cases hmove with
  | same | rescheduled => exact hsent
  | sent _ _ hc => exact absurd (carries_id hc).2.1 hnot
  | failed _ _ hc => exact absurd (carries_id hc).2.1 hnot
  | claimed | autoCanceled | skipped | swept | canceled => contradiction

theorem unsent_purgeJob (counted : List ScheduledMessage) (j : ℕ) (job : BulkJob) :
    (purgeJob counted j job).purgedFailed + (purgeJob counted j job).purgedCanceled +
      (purgeJob counted j job).purgedSkipped = job.purgedFailed + job.purgedCanceled + job.purgedSkipped +
        counted.countP fun r => r.leafOf j && !decide (r.status = .sent) := by
  have hsplit := ConservedInv.countP_split counted j
  have hsent : (counted.countP fun r => r.leafOf j && r.status == .sent) +
      (counted.countP fun r => r.leafOf j && !decide (r.status = .sent)) = counted.countP (·.leafOf j) := by
    have hadd := countP_filter_add (fun r : ScheduledMessage => r.leafOf j) (fun r => decide (r.status = .sent)) counted
    rw [List.countP_filter, List.countP_filter] at hadd
    exact hadd
  simp only [purgeJob]
  omega

theorem unsent_step (h : PurgeInv s) (hstep : scheduledStep cfg s a = some s') {j : ℕ} {job : BulkJob}
    (hjob : s.jobs j = some job) (hclosed : ∀ r ∈ s.rows, r.bulkJobId = some j → r.status.isOpen = false) :
    ∃ job', s'.jobs j = some job' ∧ unsent s' j job' = unsent s j job := by
  by_cases ha : ∃ p, a = .purgeCommit p
  · obtain ⟨p, rfl⟩ := ha
    obtain ⟨connectionId, contactRows, counted, ids, hp, hrows, hjobs⟩ := ConservedInv.purgeCommit_spec hstep
    refine ⟨purgeJob counted j job, ?_, ?_⟩
    · rw [hjobs]
      show (s.jobs j).map _ = _
      rw [hjob]
      rfl
    · have hkept := countP_filter_add (fun r : ScheduledMessage => r.leafOf j && !decide (r.status = .sent))
        (fun r => decide (r.id ∈ ids)) s.rows
      have hdeleted := ConservedInv.deleted_count h hp j (!·)
      have hraised := unsent_purgeJob counted j job
      unfold unsent
      rw [hrows]
      omega
  · have hnot : ∀ p, a ≠ .purgeCommit p := fun p hp => ha ⟨p, hp⟩
    have hj : s.jobs j ≠ none := by
      rw [hjob]
      exact Option.some_ne_none _
    have hrows : s'.rows.countP (fun r => r.leafOf j && !decide (r.status = .sent)) =
        s.rows.countP fun r => r.leafOf j && !decide (r.status = .sent) := by
      cases rows_step h.jobs.wf.ids hstep with
      | moved f hmap _ hmove =>
        rw [hmap]
        refine countP_map_of_iff fun r hr => ?_
        have hid : (f r).leafOf j = r.leafOf j := by
          unfold ScheduledMessage.leafOf
          rw [(hmove r hr).id_eq.2.1]
        rw [hid]
        by_cases hleaf : r.bulkJobId = some j
        · rw [decide_eq_decide.mpr ((hmove r hr).closed_sent_iff h.jobs hr (hclosed r hr hleaf))]
        · simp [ScheduledMessage.leafOf, hleaf]
      | created new happ _ _ _ hnew =>
        have hnone : new.countP (fun r => r.leafOf j && !decide (r.status = .sent)) = 0 :=
          List.countP_eq_zero.mpr fun r hr hq =>
            absurd (of_decide_eq_true (Bool.and_eq_true_iff.mp hq).1) (ConservedInv.new_elsewhere hnew hj r hr)
        rw [happ, List.countP_append, hnone, Nat.add_zero]
      | purged hp => exact absurd hp (hnot _)
    have hsame : ∀ job', job'.purged = job.purged → job'.purgedSent = job.purgedSent →
        unsent s' j job' = unsent s j job := by
      intro job' hpurged hsent
      simp only [BulkJob.purged] at hpurged
      unfold unsent
      rw [hrows]
      omega
    rcases jobs_step hstep j with ⟨_, _, _, _, hnone, _⟩ | heq | ⟨job₁, job', hjob₁, hjob', hmove⟩
    · exact absurd hnone hj
    · exact ⟨job, heq.trans hjob, hsame job rfl rfl⟩
    · obtain rfl := Option.some.inj (hjob.symm.trans hjob₁)
      obtain ⟨hpurged, hsent, -⟩ := ConservedInv.jobMove_counters hmove hnot
      exact ⟨job', hjob', hsame job' hpurged hsent⟩

theorem allSent_step (h : PurgeInv s) (hstep : scheduledStep cfg s a = some s') {j : ℕ} (hj : s.jobs j ≠ none)
    (hclosed : ∀ r ∈ s.rows, r.bulkJobId = some j → r.status.isOpen = false) : AllSent s' j ↔ AllSent s j := by
  obtain ⟨job, hjob⟩ := Option.ne_none_iff_exists'.mp hj
  obtain ⟨job', hjob', hsame⟩ := unsent_step h hstep hjob hclosed
  rw [allSent_iff hjob', allSent_iff hjob, hsame]

/-! ### Canceled leaves -/

theorem RowMove.to_canceled (h : JobInv s) {r r' : ScheduledMessage} (hr : r ∈ s.rows) (hmove : RowMove s a r r')
    {j : ℕ} (hleaf : r.bulkJobId = some j) (hstatus : r'.status = .canceled) : r.status = .canceled ∨
      ∃ p now ids n, a = .cancelCommit p ∧ s.processes p = .cancelCounted j now ids n := by
  cases hmove with
  | same | rescheduled => exact .inl hstatus
  | autoCanceled _ hp hc _ hjob =>
    rw [(h.wf.held _ _ _ _ _ hp _ List.mem_cons_self r hr (carries_id hc).1).1, hjob] at hleaf
    contradiction
  | canceled ha hp hmem =>
    have hjob := h.leaves _ _ _ (by rw [hp]; rfl) r hr hmem
    obtain rfl := Option.some.inj (hleaf.symm.trans hjob)
    exact .inr ⟨_, _, _, _, ha, hp⟩
  | failed =>
    simp only [ScheduledMessage.dispatchFailed] at hstatus
    split_ifs at hstatus
  | claimed | sent | skipped | swept => contradiction

theorem canceledJob_commit (h : JobInv s) {p j now n : ℕ} {ids : List ℕ}
    (hp : s.processes p = .cancelCounted j now ids n) (hstep : scheduledStep cfg s (.cancelCommit p) = some s') :
    s'.canceledJob j := by
  obtain ⟨job, hjob, -⟩ := h.active p j (by rw [hp]; rfl)
  simp only [scheduledStep, hp, hjob] at hstep
  obtain rfl := Option.some.inj hstep
  exact ⟨_, Function.update_self _ _ _, rfl⟩

def Process.countedLeaves : Process → List ScheduledMessage
  | .purgeCounted _ _ counted | .purgeDeleted _ _ counted _ => counted
  | _ => []

theorem outcome_iff {j : ℕ} {job : BulkJob} (hjob : s.jobs j = some job)
    (hclosed : ∀ r ∈ s.rows, r.bulkJobId = some j → r.status.isOpen = false)
    (hcanceled : ∀ r ∈ s.rows, r.bulkJobId = some j → r.status ≠ .canceled) (hpurged : job.purgedCanceled = 0) :
    deriveBulkJobOutcome (getBulkJobProgress s.rows s.jobs j) = .completed ↔ AllSent s j := by
  obtain ⟨-, hfailed, -, hskipped⟩ := getBulkJobProgress_closed s.rows hjob
  have hcount : s.rows.countP (fun r => r.leafOf j && !decide (r.status = .sent)) =
      countLeaves s.rows j .failed + countLeaves s.rows j .skipped := by
    unfold countLeaves
    generalize s.rows = rows at hclosed hcanceled
    induction rows with
    | nil => rfl
    | cons r rows ih =>
      have hrest := ih (fun t ht => hclosed t (List.mem_cons_of_mem r ht))
        fun t ht => hcanceled t (List.mem_cons_of_mem r ht)
      simp only [List.countP_cons, hrest]
      by_cases hleaf : r.bulkJobId = some j
      · have hopen := hclosed r List.mem_cons_self hleaf
        have hnot := hcanceled r List.mem_cons_self hleaf
        simp only [ScheduledMessage.leafOf, hleaf, decide_true, Bool.true_and]
        cases hstatus : r.status with
        | scheduled | processing =>
          rw [hstatus] at hopen
          contradiction
        | canceled => exact absurd hstatus hnot
        | sent | failed | skipped =>
          simp
          try omega
      · simp [ScheduledMessage.leafOf, hleaf]
  rw [allSent_iff hjob]
  unfold deriveBulkJobOutcome unsent
  split_ifs with hbad
  · simp only [false_iff]
    omega
  · simp only [true_iff]
    omega

end Unsent

/-! ### The invariant -/

structure OutcomeInv (s : Tenant) : Prop where
  purge : PurgeInv s
  canceled : ∀ r ∈ s.rows, ∀ j, r.bulkJobId = some j → r.status = .canceled → s.canceledJob j
  counted : ∀ p, ∀ r ∈ (s.processes p).countedLeaves, ∀ j, r.bulkJobId = some j → r.status = .canceled →
    s.canceledJob j
  purgedCanceled : ∀ j job, s.jobs j = some job → job.purgedCanceled ≠ 0 → job.status = .canceled
  drained : ∀ p j status progress, s.processes p = .drained j status progress →
    s.canceledJob j ∨ (deriveBulkJobOutcome progress = .completed ↔ AllSent s j)
  finished : ∀ j job, s.jobs j = some job → job.status.finished = true → (job.status = .completed ↔ AllSent s j)

namespace OutcomeInv

variable {cfg : BulkConfig} {s s' : Tenant} {a : ScheduledAction}

theorem empty (clock : ℕ → ℕ) : OutcomeInv (.empty clock) where
  purge := .empty clock
  canceled := fun _ hr => absurd hr List.not_mem_nil
  counted := fun _ _ hr => absurd hr List.not_mem_nil
  purgedCanceled := fun _ _ hj => nomatch hj
  drained := fun _ _ _ _ hp => nomatch hp
  finished := fun _ _ hj => nomatch hj

theorem canceled_step (h : OutcomeInv s) (hstep : scheduledStep cfg s a = some s') {r' : ScheduledMessage}
    (hr' : r' ∈ s'.rows) {j : ℕ} (hleaf : r'.bulkJobId = some j) (hstatus : r'.status = .canceled) :
    s'.canceledJob j := by
  rcases (rows_step h.purge.jobs.wf.ids hstep).of_mem hr' with ⟨r, hr, hmove⟩ | ⟨-, hnew⟩
  · have hjob := hmove.id_eq.2.1.symm.trans hleaf
    rcases hmove.to_canceled h.purge.jobs hr hjob hstatus with hold | ⟨p, now, ids, n, rfl, hp⟩
    · exact canceledJob_step (jobs_step hstep) (h.canceled r hr j hjob hold)
    · exact canceledJob_commit h.purge.jobs hp hstep
  · cases hnew with
    | message => contradiction
    | leaf =>
      simp only [ScheduledMessage.fresh] at hstatus
      split_ifs at hstatus

theorem counted_step (h : OutcomeInv s) (hstep : scheduledStep cfg s a = some s') {p : ℕ} {r : ScheduledMessage}
    (hr : r ∈ (s'.processes p).countedLeaves) {j : ℕ} (hleaf : r.bulkJobId = some j)
    (hstatus : r.status = .canceled) : s'.canceledJob j := by
  refine canceledJob_step (jobs_step hstep) ?_
  rcases processes_step hstep p with heq | hmove
  · exact h.counted p r (heq ▸ hr) j hleaf hstatus
  · generalize hx : s.processes p = x at hmove
    generalize s'.processes p = y at hr hmove
    cases hmove with
    | purgeCounted => exact h.canceled r (List.mem_of_mem_filter hr) j hleaf hstatus
    | purgeDeleted => exact h.counted p r (by rw [hx]; exact hr) j hleaf hstatus
    | _ => exact absurd hr List.not_mem_nil

theorem purgedCanceled_step (h : OutcomeInv s) (hstep : scheduledStep cfg s a = some s') {j : ℕ} {job' : BulkJob}
    (hjob' : s'.jobs j = some job') (hpurged : job'.purgedCanceled ≠ 0) : job'.status = .canceled := by
  rcases jobs_step hstep j with ⟨_, _, _, _, _, hnew⟩ | heq | ⟨job, job₁, hjob, hjob₁, hmove⟩
  · obtain rfl := Option.some.inj (hnew.symm.trans hjob')
    exact absurd rfl hpurged
  · exact h.purgedCanceled j job' (heq ▸ hjob') hpurged
  · obtain rfl := Option.some.inj (hjob₁.symm.trans hjob')
    cases hmove with
    | same | stamped | rescheduled => exact h.purgedCanceled j job hjob hpurged
    | running _ hstatus =>
      rw [h.purgedCanceled j job hjob hpurged] at hstatus
      contradiction
    | finished _ _ _ _ hactive =>
      rw [h.purgedCanceled j job hjob hpurged] at hactive
      contradiction
    | canceled => rfl
    | purged ha hp =>
      rename_i p connectionId contactRows ids counted
      show job.status = .canceled
      by_cases hold : job.purgedCanceled = 0
      · -- a leaf it counted was canceled
        have hcount : counted.countP (fun r => r.leafOf j && r.status == .canceled) ≠ 0 := by
          intro hzero
          refine hpurged ?_
          simp only [purgeJob]
          omega
        obtain ⟨r, hr, hq⟩ := List.countP_pos_iff.mp (Nat.pos_of_ne_zero hcount)
        obtain ⟨hleaf, hstatus⟩ := Bool.and_eq_true_iff.mp hq
        obtain ⟨job₂, hjob₂, hcanceled⟩ :=
          h.counted p r (by rw [hp]; exact hr) j (of_decide_eq_true hleaf) (eq_of_beq hstatus)
        obtain rfl := Option.some.inj (hjob.symm.trans hjob₂)
        exact hcanceled
      · exact h.purgedCanceled j job hjob hold

theorem drained_step (h : OutcomeInv s) (hstep : scheduledStep cfg s a = some s') {p j : ℕ}
    {status : BulkJobStatus} {progress : BulkJobProgress} (hp : s'.processes p = .drained j status progress) :
    s'.canceledJob j ∨ (deriveBulkJobOutcome progress = .completed ↔ AllSent s' j) := by
  rcases processes_step hstep p with heq | hmove
  · have hold := heq ▸ hp
    rcases h.drained p j status progress hold with hcanceled | hiff
    · exact .inl (canceledJob_step (jobs_step hstep) hcanceled)
    · rw [allSent_step h.purge hstep (h.purge.jobs.known p j status (by rw [hold]; rfl))
        (h.purge.jobs.drained p j status progress hold)]
      exact .inr hiff
  · generalize hx : s.processes p = x at hmove
    rw [hp] at hmove
    cases hmove with
    | drained _ hopen =>
      have hj := h.purge.jobs.known p j status (by rw [hx]; rfl)
      obtain ⟨job, hjob⟩ := Option.ne_none_iff_exists'.mp hj
      have hclosed : ∀ r ∈ s.rows, r.bulkJobId = some j → r.status.isOpen = false :=
        fun r hr hleaf => isOpen_of_drained hopen hr hleaf
      by_cases hcanceled : s.canceledJob j
      · exact .inl (canceledJob_step (jobs_step hstep) hcanceled)
      · rw [allSent_step h.purge hstep hj hclosed]
        refine .inr (outcome_iff hjob hclosed (fun r hr hleaf hs => hcanceled (h.canceled r hr j hleaf hs)) ?_)
        by_contra hpurged
        exact hcanceled ⟨job, hjob, h.purgedCanceled j job hjob hpurged⟩

theorem finished_step (h : OutcomeInv s) (hstep : scheduledStep cfg s a = some s') {j : ℕ} {job' : BulkJob}
    (hjob' : s'.jobs j = some job') (hfinished : job'.status.finished = true) :
    job'.status = .completed ↔ AllSent s' j := by
  have hkept : ∀ job, s.jobs j = some job → job.status.finished = true →
      (job.status = .completed ↔ AllSent s' j) := by
    intro job hjob hbefore
    have hj : s.jobs j ≠ none := by
      rw [hjob]
      exact Option.some_ne_none _
    rw [allSent_step h.purge hstep hj (h.purge.jobs.finished j job hjob hbefore)]
    exact h.finished j job hjob hbefore
  rcases jobs_step hstep j with ⟨_, _, _, _, _, hnew⟩ | heq | ⟨job, job₁, hjob, hjob₁, hmove⟩
  · obtain rfl := Option.some.inj (hnew.symm.trans hjob')
    contradiction
  · exact hkept job' (heq ▸ hjob') hfinished
  · obtain rfl := Option.some.inj (hjob₁.symm.trans hjob')
    cases hmove with
    | same | stamped | rescheduled | purged => exact hkept job hjob hfinished
    | running | canceled => contradiction
    | finished _ hp _ _ hactive =>
      have hj : s.jobs j ≠ none := by
        rw [hjob]
        exact Option.some_ne_none _
      rw [allSent_step h.purge hstep hj (h.purge.jobs.drained _ j _ _ hp)]
      rcases h.drained _ j _ _ hp with ⟨job₂, hjob₂, hcanceled⟩ | hiff
      · obtain rfl := Option.some.inj (hjob.symm.trans hjob₂)
        rw [hcanceled] at hactive
        contradiction
      · exact hiff

theorem step (h : OutcomeInv s) (hC : NoLateLeaf s a) (hstep : scheduledStep cfg s a = some s') : OutcomeInv s' where
  purge := h.purge.step hC hstep
  canceled := fun _ hr _ hleaf hstatus => h.canceled_step hstep hr hleaf hstatus
  counted := fun _ _ hr _ hleaf hstatus => h.counted_step hstep hr hleaf hstatus
  purgedCanceled := fun _ _ hjob hpurged => h.purgedCanceled_step hstep hjob hpurged
  drained := fun _ _ _ _ hp => h.drained_step hstep hp
  finished := fun _ _ hjob hfinished => h.finished_step hstep hjob hfinished

end OutcomeInv

namespace JobInv

variable {cfg : BulkConfig} {s s' : Tenant} {a : ScheduledAction}

theorem finishedKept (h : JobInv s) (hstep : scheduledStep cfg s a = some s') : FinishedKept s a s' := by
  intro j job hjob hfinished
  rcases jobs_step hstep j with ⟨_, _, _, _, hnone, _⟩ | heq | ⟨job₁, job', hjob₁, hjob', hmove⟩
  · rw [hjob] at hnone
    contradiction
  · exact ⟨job, heq.trans hjob, rfl⟩
  · obtain rfl := Option.some.inj (hjob.symm.trans hjob₁)
    refine ⟨job', hjob', ?_⟩
    cases hmove with
    | same | stamped | rescheduled | purged => rfl
    | running _ hstatus =>
      rw [hstatus] at hfinished
      contradiction
    | finished _ _ _ _ hactive =>
      cases hstatus : job.status <;> rw [hstatus] at hactive hfinished <;> contradiction
    | canceled _ hp =>
      obtain ⟨job₂, hjob₂, hactive⟩ := h.active _ j (by rw [hp]; rfl)
      obtain rfl := Option.some.inj (hjob.symm.trans hjob₂)
      cases hstatus : job.status <;> rw [hstatus] at hactive hfinished <;> contradiction

theorem movedTogether (h : JobInv s) (hstep : scheduledStep cfg s a = some s') : MovedTogether s a s' := by
  rintro j scheduledAt rfl
  simp only [scheduledStep] at hstep
  split_ifs at hstep
  obtain rfl := Option.some.inj hstep
  cases hmoved : s.rescheduleBulkJob j scheduledAt with
  | none => exact .inl rfl
  | some t =>
    obtain ⟨job, hjob, -, hleaves, rfl⟩ := rescheduleBulkJob_some hmoved
    refine .inr ⟨job, hjob, ?_⟩
    have hrows : s.rows.map (fun r => if s.reschedules j r then r.rescheduled scheduledAt else r) =
        s.rows.map fun r => if r.leafOf j then r.rescheduled scheduledAt else r := by
      refine List.map_congr_left fun r hr => ?_
      have hsame : s.reschedules j r = r.leafOf j := by
        rw [Bool.eq_iff_iff]
        unfold Tenant.reschedules
        rw [Bool.and_eq_true, decide_eq_true_eq, decide_eq_true_eq]
        constructor
        · exact fun hq => h.mem_of_id hr hq.1
        · exact fun hleaf => ⟨List.mem_map_of_mem (List.mem_filter.mpr ⟨hr, hleaf⟩), hleaves r hr hleaf⟩
      rw [hsame]
    simp only [Option.getD_some, updateRows, setJob, hrows]

end JobInv

/-- **A broadcast finishes once, truthfully**: in every run a finished job keeps its outcome and has no open
leaf, and a broadcast moves in time with all its leaves or not at all; unless a broadcast is created under an
open purge of one of its contacts, a finished job is `completed` exactly when every recipient was sent to. -/
theorem broadcast_finishes_once (cfg : BulkConfig) (clock : ℕ → ℕ) (as : List ScheduledAction) :
    Always (scheduledStep cfg) FinishedDrained (.empty clock) as ∧
      Steps (scheduledStep cfg) (fun s a s' => FinishedKept s a s' ∧ MovedTogether s a s') (.empty clock) as ∧
      (Meets (scheduledStep cfg) NoLateLeaf (.empty clock) as →
        Always (scheduledStep cfg) FinishedTruthful (.empty clock) as) := by
  have hrun : Always (scheduledStep cfg) JobInv (.empty clock) as :=
    always_of_step (fun _ _ _ hs hstep => JobInv.step hs hstep) (JobInv.empty clock) as
  refine ⟨hrun.mono fun s hs => hs.finished, ?_, fun h => ?_⟩
  · exact steps_of_meets (C := fun _ _ => True)
      (fun s a s' hs _ hstep => ⟨JobInv.step hs hstep, hs.finishedKept hstep, hs.movedTogether hstep⟩)
      (JobInv.empty clock) (meets_of_forall fun _ _ => trivial)
  · have htruth := always_of_meets (fun s a s' hs ha hstep => OutcomeInv.step hs ha hstep) (OutcomeInv.empty clock) h
    exact htruth.mono fun s hs => hs.finished

/-- A broadcast to two contacts; the connection of one is purged while the other is sent to. -/
theorem broadcast_finishes_once_purge :
    Always (scheduledStep (getBulkConfig none none none)) FinishedTruthful (.empty fun _ => 0)
      (archivedConnection ++ [.createJob 0 7 0 [⟨10, 2, none⟩, ⟨11, 1, some .connectionArchived⟩], .capture 2 0,
        .beginClaim 2, .claimBulk 2 2 [], .markRunning 7, .purgeLock 1 1, .purgeCount 1, .send 2 99, .purgeDelete 1,
        .finalizeRead 3 7, .finalizeCount 3, .purgeCommit 1, .finalizeWrite 3]) :=
  (broadcast_finishes_once _ _ _).2.2
    (Meets.strengthen (fun _ _ _ h hstep => Wf.step h hstep) (Wf.empty _) (meets_of_check rfl)
      fun _ _ => noLateLeaf_of_unlocked)

end TeamInbox.Broadcast
