import TeamInbox.Broadcast.WellFormed

/-!
# TeamInbox.Broadcast.Lifecycle — jobs and their leaves in every run

A closed leaf never opens again (`RowMove.closed`), so what a finalizing call has seen of a drained job stays
true until it writes, and a finished job has no open leaf.  A cancellation holds the lock of its job from its
first statement on; the job is active until it commits.
-/

namespace TeamInbox.Broadcast

open Lib Tenant

def Tenant.canceledJob (s : Tenant) (j : ℕ) : Prop := ∃ job, s.jobs j = some job ∧ job.status = .canceled

/-- The job of a cancellation that has not committed. -/
def Process.cancels : Process → Option ℕ
  | .canceling j _ | .cancelFound j _ _ | .cancelWritten j _ _ | .cancelCounted j _ _ _ => some j
  | _ => none

def Process.found : Process → Option (ℕ × List ℕ)
  | .cancelFound j _ ids | .cancelWritten j _ ids | .cancelCounted j _ ids _ => some (j, ids)
  | _ => none

def Process.wrote : Process → Option (ℕ × List ℕ)
  | .cancelWritten j _ ids | .cancelCounted j _ ids _ => some (j, ids)
  | _ => none

/-- The job and the status a finalizing call has read. -/
def Process.finalizes : Process → Option (ℕ × BulkJobStatus)
  | .finalizing j status | .drained j status _ => some (j, status)
  | _ => none

section Moves

variable {cfg : BulkConfig} {s s' : Tenant} {a : ScheduledAction} {r r' : ScheduledMessage}

/-! ### Rows -/

theorem isOpen_iff {status : ScheduledMessageStatus} :
    status.isOpen = true ↔ status = .scheduled ∨ status = .processing := by
  cases status <;> simp [ScheduledMessageStatus.isOpen]

theorem RowMove.closed (h : RowMove s a r r') (hclosed : r.status.isOpen = false) : r'.status.isOpen = false := by
  have hnot : r.status ≠ .processing := by
    intro hstatus
    rw [hstatus] at hclosed
    contradiction
  cases h with
  | same | rescheduled => exact hclosed
  | claimed _ _ hopen => exact absurd hopen (by simp [hclosed])
  | failed _ _ hc => exact absurd (carries_id hc).2.1 hnot
  | sent | autoCanceled | skipped | swept | canceled => rfl

theorem RowMove.to_scheduled (h : RowMove s a r r') (hstatus : r'.status = .scheduled) :
    r.status = .scheduled ∨ ∃ p now claimUntil t held, a = .fail p .transient ∧
      s.processes p = .dispatching now claimUntil none (t :: held) ∧ r.carries t claimUntil = true ∧
      t.exhausted false = false := by
  cases h with
  | same | rescheduled => exact .inl hstatus
  | failed ha hp hc =>
    rename_i permanent _
    simp only [ScheduledMessage.dispatchFailed] at hstatus
    split_ifs at hstatus with hexhausted
    cases permanent with
    | true => exact absurd rfl hexhausted
    | false => exact .inr ⟨_, _, _, _, _, ha, hp, hc, Bool.eq_false_iff.mpr hexhausted⟩
  | _ => contradiction

theorem RowMove.to_processing (h : RowMove s a r r') (hstatus : r'.status = .processing) :
    r.status = .processing ∨ (r.status = .scheduled ∧ s.unlocked (.leaf r.id) = true ∧
      ((∃ p skipped, a = .claimDue p skipped ∧ r.bulkJobId = none) ∨
        ∃ p connectionId skipped, a = .claimBulk p connectionId skipped)) := by
  cases h with
  | same | rescheduled => exact .inl hstatus
  | claimed hp ha hopen _ hfree =>
    rcases isOpen_iff.mp hopen with hs | hs
    · refine .inr ⟨hs, hfree, ?_⟩
      rcases ha with ⟨ha, hjob⟩ | ⟨connectionId, ha, -⟩
      · exact .inl ⟨_, _, ha, hjob⟩
      · exact .inr ⟨_, _, _, ha⟩
    · exact .inl hs
  | failed =>
    simp only [ScheduledMessage.dispatchFailed] at hstatus
    split_ifs at hstatus
  | _ => contradiction

theorem RowMove.same_of (h : RowMove s a r r')
    (hread : (∃ p, a = .cancelFind p) ∨ (∃ p, a = .cancelWrite p) ∨ (∃ p, a = .cancelCount p) ∨
      ∃ p, a = .finalizeCount p) : r' = r := by
  rcases hread with ⟨p, rfl⟩ | ⟨p, rfl⟩ | ⟨p, rfl⟩ | ⟨p, rfl⟩
  all_goals
    cases h with
    | same => rfl
    | claimed _ ha =>
      rcases ha with ⟨ha, -⟩ | ⟨_, ha, -⟩ <;> contradiction
    | _ => contradiction

theorem RowMove.locked (h : RowMove s a r r') (hlocked : s.unlocked (.leaf r.id) = false) :
    r' = r ∨ ∃ p j now ids n, a = .cancelCommit p ∧ s.processes p = .cancelCounted j now ids n ∧ r.id ∈ ids := by
  cases h with
  | same => exact .inl rfl
  | canceled ha hp hmem => exact .inr ⟨_, _, _, _, _, ha, hp, hmem⟩
  | claimed _ _ _ _ hfree => exact absurd hfree (by simp [hlocked])
  | sent _ _ _ hfree => exact absurd hfree (by simp [hlocked])
  | autoCanceled _ _ _ hfree => exact absurd hfree (by simp [hlocked])
  | failed _ _ _ hfree => exact absurd hfree (by simp [hlocked])
  | skipped _ _ _ hfree => exact absurd hfree (by simp [hlocked])
  | swept _ _ _ hfree => exact absurd hfree (by simp [hlocked])
  | rescheduled _ _ _ hfree => exact absurd hfree (by simp [hlocked])

theorem cancelCommit_rows {p j now n : ℕ} {ids : List ℕ} (hp : s.processes p = .cancelCounted j now ids n)
    (hstep : scheduledStep cfg s (.cancelCommit p) = some s') :
    s'.rows = s.rows.map fun r => if decide (r.id ∈ ids) then r.canceled else r := by
  simp only [scheduledStep, hp] at hstep
  split at hstep
  · contradiction
  · obtain rfl := Option.some.inj hstep
    rfl

/-! ### Jobs -/

theorem JobMove.finished_status {j : ℕ} {job job' : BulkJob} (h : JobMove s a j job job')
    (hfinished : job'.status.finished = true) : job.status.finished = true ∨
      ∃ p status progress, a = .finalizeWrite p ∧ s.processes p = .drained j status progress ∧
        status ≠ .canceled := by
  cases h with
  | same | stamped | rescheduled | purged => exact .inl hfinished
  | finished ha hp _ hstatus _ => exact .inr ⟨_, _, _, ha, hp, hstatus⟩
  | running | canceled => contradiction

theorem JobMove.active {j : ℕ} {job job' : BulkJob} (h : JobMove s a j job job')
    (hactive : job.status.isActive = true) (hnot : s.unlocked (.job j) = false)
    (hcommit : ∀ p now ids n, a = .cancelCommit p → s.processes p ≠ .cancelCounted j now ids n) :
    job'.status.isActive = true := by
  cases h with
  | same | stamped | rescheduled | purged => exact hactive
  | running => rfl
  | finished _ _ hfree _ _ => exact absurd hfree (by simp [hnot])
  | canceled ha hp => exact absurd hp (hcommit _ _ _ _ ha)

theorem canceledJob_step (hjobs : JobsChange s a s') {j : ℕ} (h : s.canceledJob j) : s'.canceledJob j := by
  obtain ⟨job, hjob, hstatus⟩ := h
  rcases hjobs j with ⟨_, _, _, _, hnone, _⟩ | heq | ⟨job₁, job', hjob₁, hjob', hmove⟩
  · rw [hjob] at hnone
    contradiction
  · exact ⟨job, heq.trans hjob, hstatus⟩
  · obtain rfl := Option.some.inj (hjob.symm.trans hjob₁)
    refine ⟨job', hjob', ?_⟩
    cases hmove with
    | same | stamped | rescheduled | purged => exact hstatus
    | running _ hs =>
      rw [hstatus] at hs
      contradiction
    | finished _ _ _ _ hactive =>
      rw [hstatus] at hactive
      contradiction
    | canceled => rfl

theorem canceledJob_cases (hjobs : JobsChange s a s') {j : ℕ} (h : s'.canceledJob j) :
    s.canceledJob j ∨ ∃ p now ids n, a = .cancelCommit p ∧ s.processes p = .cancelCounted j now ids n := by
  obtain ⟨job', hjob', hstatus⟩ := h
  rcases hjobs j with ⟨_, _, _, _, _, hnew⟩ | heq | ⟨job, job₁, hjob, hjob₁, hmove⟩
  · obtain rfl := Option.some.inj (hnew.symm.trans hjob')
    contradiction
  · exact .inl ⟨job', heq ▸ hjob', hstatus⟩
  · obtain rfl := Option.some.inj (hjob₁.symm.trans hjob')
    cases hmove with
    | same | stamped | rescheduled | purged => exact .inl ⟨job, hjob, hstatus⟩
    | running => contradiction
    | finished =>
      simp only [deriveBulkJobOutcome] at hstatus
      split_ifs at hstatus
    | canceled ha hp => exact .inr ⟨_, _, _, _, ha, hp⟩

end Moves

/-! ### The invariant -/

structure JobInv (s : Tenant) : Prop where
  wf : Wf s
  leaves : ∀ p j ids, (s.processes p).found = some (j, ids) →
    ∀ r ∈ s.rows, r.id ∈ ids → r.bulkJobId = some j
  written : ∀ p j ids, (s.processes p).wrote = some (j, ids) →
    ∀ r ∈ s.rows, r.id ∈ ids → r.status = .scheduled ∨ r.status = .failed
  active : ∀ p j, (s.processes p).cancels = some j → ∃ job, s.jobs j = some job ∧ job.status.isActive = true
  uncompleted : ∀ j job, s.jobs j = some job → job.status.isActive = true → job.completedAt = none
  finalizing : ∀ p j, (s.processes p).finalizes = some (j, .canceled) → s.canceledJob j
  known : ∀ p j status, (s.processes p).finalizes = some (j, status) → s.jobs j ≠ none
  drained : ∀ p j status progress, s.processes p = .drained j status progress →
    ∀ r ∈ s.rows, r.bulkJobId = some j → r.status.isOpen = false
  finished : ∀ j job, s.jobs j = some job → job.status.finished = true →
    ∀ r ∈ s.rows, r.bulkJobId = some j → r.status.isOpen = false

namespace JobInv

variable {cfg : BulkConfig} {s s' : Tenant} {a : ScheduledAction}

theorem empty (clock : ℕ → ℕ) : JobInv (.empty clock) where
  wf := .empty clock
  leaves := fun _ _ _ hp => nomatch hp
  written := fun _ _ _ hp => nomatch hp
  active := fun _ _ hp => nomatch hp
  uncompleted := fun _ _ hj => nomatch hj
  finalizing := fun _ _ hp => nomatch hp
  known := fun _ _ _ hp => nomatch hp
  drained := fun _ _ _ _ hp => nomatch hp
  finished := fun _ _ hj => nomatch hj

theorem leaf_before (h : JobInv s) (hstep : scheduledStep cfg s a = some s') {j : ℕ} (hj : s.jobs j ≠ none)
    {r' : ScheduledMessage} (hr' : r' ∈ s'.rows) (hleaf : r'.bulkJobId = some j) :
    ∃ r ∈ s.rows, r.bulkJobId = some j ∧ RowMove s a r r' := by
  rcases (rows_step h.wf.ids hstep).of_mem hr' with ⟨r, hr, hmove⟩ | ⟨-, hnew⟩
  · exact ⟨r, hr, hmove.id_eq.2.1.symm.trans hleaf, hmove⟩
  · cases hnew with
    | message ha => contradiction
    | leaf ha hjob hmem =>
      obtain rfl := Option.some.inj hleaf
      exact absurd hjob hj

theorem closed_after (h : JobInv s) (hstep : scheduledStep cfg s a = some s') {j : ℕ} (hj : s.jobs j ≠ none)
    (hclosed : ∀ r ∈ s.rows, r.bulkJobId = some j → r.status.isOpen = false) :
    ∀ r ∈ s'.rows, r.bulkJobId = some j → r.status.isOpen = false := by
  intro r' hr' hleaf
  obtain ⟨r, hr, hjob, hmove⟩ := h.leaf_before hstep hj hr' hleaf
  exact hmove.closed (hclosed r hr hjob)

theorem cancels_locks {x : Process} {j : ℕ} (hx : x.cancels = some j) : .job j ∈ x.locks := by
  cases x <;> simp only [Process.cancels, Option.some.injEq, reduceCtorEq] at hx
  all_goals
    subst hx
    exact List.mem_cons_self

theorem wrote_locks {x : Process} {j : ℕ} {ids : List ℕ} (hx : x.wrote = some (j, ids)) :
    ∀ i ∈ ids, .leaf i ∈ x.locks := by
  cases x <;> simp only [Process.wrote, Option.some.injEq, Prod.mk.injEq, reduceCtorEq] at hx
  all_goals
    obtain ⟨rfl, rfl⟩ := hx
    intro i hi
    exact List.mem_cons_of_mem _ (List.mem_map_of_mem hi)

theorem cancels_unique (h : JobInv s) {p q j : ℕ} (hp : (s.processes p).cancels = some j)
    (hq : (s.processes q).cancels = some j) : p = q :=
  h.wf.exclusive _ p q (h.wf.locks p _ (cancels_locks hp)) (h.wf.locks q _ (cancels_locks hq))

theorem active_step (h : JobInv s) (hstep : scheduledStep cfg s a = some s') {p j : ℕ}
    (hp : (s'.processes p).cancels = some j) : ∃ job, s'.jobs j = some job ∧ job.status.isActive = true := by
  have hkept : (s.processes p).cancels = some j → s'.processes p ≠ .idle →
      ∃ job, s'.jobs j = some job ∧ job.status.isActive = true := by
    intro hold hbusy
    obtain ⟨job, hjob, hactive⟩ := h.active p j hold
    rcases jobs_step hstep j with ⟨_, _, _, _, hnone, _⟩ | heq | ⟨job₁, job', hjob₁, hjob', hmove⟩
    · rw [hjob] at hnone
      contradiction
    · exact ⟨job, heq.trans hjob, hactive⟩
    · obtain rfl := Option.some.inj (hjob.symm.trans hjob₁)
      refine ⟨job', hjob', hmove.active hactive (h.wf.locked_elsewhere (cancels_locks hold)) ?_⟩
      rintro q now ids n rfl hq
      -- the cancellation that commits would be `p`, which then ends
      obtain rfl := h.cancels_unique hold (by rw [hq]; rfl)
      simp only [scheduledStep, hq, hjob] at hstep
      obtain rfl := Option.some.inj hstep
      exact hbusy (Function.update_self _ _ _)
  have hbusy : s'.processes p ≠ .idle := by
    intro hidle
    rw [hidle] at hp
    contradiction
  rcases processes_step hstep p with heq | hmove
  · exact hkept (heq ▸ hp) hbusy
  · generalize hx : s.processes p = x at hmove hkept
    generalize s'.processes p = y at hp hmove hkept hbusy
    cases hmove with
    | canceling ha hjob hactive _ =>
      obtain rfl := Option.some.inj hp
      subst ha
      rename_i j job _
      rcases jobs_step hstep j with ⟨_, _, _, _, hnone, _⟩ | heq | ⟨job₁, job', hjob₁, hjob', hmove⟩
      · rw [hjob] at hnone
        contradiction
      · exact ⟨job, heq.trans hjob, hactive⟩
      · obtain rfl := Option.some.inj (hjob.symm.trans hjob₁)
        refine ⟨job', hjob', ?_⟩
        cases hmove with
        | same | stamped | rescheduled | purged => exact hactive
        | running => rfl
        | finished ha => contradiction
        | canceled ha => contradiction
    | cancelFound | cancelWritten | cancelCounted => exact hkept hp hbusy
    | _ => contradiction

theorem row_before (h : JobInv s) (hstep : scheduledStep cfg s a = some s') {i : ℕ} (hi : i ∈ s.issued)
    {r' : ScheduledMessage} (hr' : r' ∈ s'.rows) (hid : r'.id = i) : ∃ r ∈ s.rows, r.id = i ∧ RowMove s a r r' := by
  rcases (rows_step h.wf.ids hstep).of_mem hr' with ⟨r, hr, hmove⟩ | ⟨hnew, -⟩
  · exact ⟨r, hr, hmove.id_eq.1.symm.trans hid, hmove⟩
  · exact absurd (hid ▸ hi) hnew

theorem found_issued (h : JobInv s) {p j : ℕ} {ids : List ℕ} (hp : (s.processes p).found = some (j, ids)) :
    ∀ i ∈ ids, i ∈ s.issued := by
  intro i hi
  refine h.wf.rowIds p i ?_
  generalize s.processes p = x at hp
  cases x <;> simp only [Process.found, Option.some.injEq, Prod.mk.injEq, reduceCtorEq] at hp
  all_goals
    obtain ⟨rfl, rfl⟩ := hp
    exact hi

theorem wrote_found {x : Process} {j : ℕ} {ids : List ℕ} (h : x.wrote = some (j, ids)) :
    x.found = some (j, ids) := by
  cases x <;> first | exact h | contradiction

theorem mem_of_id (h : JobInv s) {q : ScheduledMessage → Bool} {r : ScheduledMessage} (hr : r ∈ s.rows)
    (hid : r.id ∈ (s.rows.filter q).map (·.id)) : q r = true := by
  obtain ⟨t, ht, hid⟩ := List.mem_map.mp hid
  obtain ⟨ht, hq⟩ := List.mem_filter.mp ht
  obtain rfl := eq_of_id h.wf.ids ht hr hid
  exact hq

theorem leaves_step (h : JobInv s) (hstep : scheduledStep cfg s a = some s') {p j : ℕ} {ids : List ℕ}
    (hp : (s'.processes p).found = some (j, ids)) :
    ∀ r ∈ s'.rows, r.id ∈ ids → r.bulkJobId = some j := by
  intro r' hr' hid
  have hkept : ∀ ids', (s.processes p).found = some (j, ids') → r'.id ∈ ids' → r'.bulkJobId = some j := by
    intro ids' hold hmem
    obtain ⟨r, hr, hid', hmove⟩ := h.row_before hstep (h.found_issued hold _ hmem) hr' rfl
    rw [hmove.id_eq.2.1]
    exact h.leaves p j ids' hold r hr (hid' ▸ hmem)
  have hrow : ∀ q : ScheduledMessage → Bool, r'.id ∈ (s.rows.filter q).map (·.id) →
      ∃ r ∈ s.rows, q r = true ∧ r.id = r'.id ∧ RowMove s a r r' := by
    intro q hmem
    obtain ⟨t, ht, hid'⟩ := List.mem_map.mp hmem
    have hissued : r'.id ∈ s.issued := hid' ▸ h.wf.issued t (List.mem_of_mem_filter ht)
    obtain ⟨r, hr, hid'', hmove⟩ := h.row_before hstep hissued hr' rfl
    exact ⟨r, hr, h.mem_of_id hr (hid''.symm ▸ hmem), hid'', hmove⟩
  rcases processes_step hstep p with heq | hmove
  · exact hkept ids (heq ▸ hp) hid
  · generalize hx : s.processes p = x at hmove hkept
    generalize s'.processes p = y at hp hmove
    cases hmove with
    | cancelFound =>
      obtain ⟨rfl, rfl⟩ := Prod.mk.inj (Option.some.inj hp)
      obtain ⟨r, hr, hq, -, hmove⟩ := hrow _ hid
      rw [hmove.id_eq.2.1]
      exact of_decide_eq_true (Bool.and_eq_true_iff.mp hq).1
    | cancelWritten =>
      obtain ⟨rfl, rfl⟩ := Prod.mk.inj (Option.some.inj hp)
      obtain ⟨r, hr, hq, hid', -⟩ := hrow _ hid
      exact hkept _ rfl (hid' ▸ of_decide_eq_true (Bool.and_eq_true_iff.mp hq).1)
    | cancelCounted => exact hkept ids hp hid
    | _ => contradiction

theorem written_step (h : JobInv s) (hstep : scheduledStep cfg s a = some s') {p j : ℕ} {ids : List ℕ}
    (hp : (s'.processes p).wrote = some (j, ids)) :
    ∀ r ∈ s'.rows, r.id ∈ ids → r.status = .scheduled ∨ r.status = .failed := by
  intro r' hr' hid
  have hbusy : s'.processes p ≠ .idle := by
    intro hidle
    rw [hidle] at hp
    contradiction
  have hkept : (s.processes p).wrote = some (j, ids) → s'.processes p ≠ .idle →
      r'.status = .scheduled ∨ r'.status = .failed := by
    intro hold hbusy
    obtain ⟨r, hr, hid', hmove⟩ := h.row_before hstep (h.found_issued (wrote_found hold) _ hid) hr' rfl
    have hmem : r.id ∈ ids := hid' ▸ hid
    have hlock := wrote_locks hold _ hmem
    rcases hmove.locked (h.wf.locked_elsewhere hlock) with rfl | ⟨q, j', now, ids', n, rfl, hq, hmem'⟩
    · exact h.written p j ids hold r' hr hmem
    · have hwrote : (s.processes q).wrote = some (j', ids') := by
        rw [hq]
        rfl
      have hlock' : .leaf r.id ∈ (s.processes q).locks := wrote_locks hwrote _ hmem'
      obtain rfl := h.wf.exclusive _ q p (h.wf.locks q _ hlock') (h.wf.locks p _ hlock)
      obtain ⟨job, hjob, -⟩ := h.active q j' (by rw [hq]; rfl)
      simp only [scheduledStep, hq, hjob] at hstep
      obtain rfl := Option.some.inj hstep
      exact absurd (Function.update_self _ _ _) hbusy
  rcases processes_step hstep p with heq | hmove
  · exact hkept (heq ▸ hp) hbusy
  · generalize hx : s.processes p = x at hmove hkept
    generalize s'.processes p = y at hp hmove hkept hbusy
    cases hmove with
    | cancelWritten ha =>
      obtain ⟨rfl, rfl⟩ := Prod.mk.inj (Option.some.inj hp)
      obtain ⟨t, ht, hid'⟩ := List.mem_map.mp hid
      have hissued : r'.id ∈ s.issued := hid' ▸ h.wf.issued t (List.mem_of_mem_filter ht)
      obtain ⟨r, hr, hid'', hmove⟩ := h.row_before hstep hissued hr' rfl
      obtain rfl := hmove.same_of (.inr (.inl ⟨p, ha⟩))
      exact of_decide_eq_true (Bool.and_eq_true_iff.mp (h.mem_of_id hr hid)).2
    | cancelCounted => exact hkept hp hbusy
    | _ => contradiction

theorem uncompleted_step (h : JobInv s) (hstep : scheduledStep cfg s a = some s') {j : ℕ} {job' : BulkJob}
    (hjob' : s'.jobs j = some job') (hactive : job'.status.isActive = true) : job'.completedAt = none := by
  rcases jobs_step hstep j with ⟨_, _, _, _, _, hnew⟩ | heq | ⟨job, job₁, hjob, hjob₁, hmove⟩
  · obtain rfl := Option.some.inj (hnew.symm.trans hjob')
    rfl
  · exact h.uncompleted j job' (heq ▸ hjob') hactive
  · obtain rfl := Option.some.inj (hjob₁.symm.trans hjob')
    cases hmove with
    | same | rescheduled | purged => exact h.uncompleted j job hjob hactive
    | running _ hstatus => exact h.uncompleted j job hjob (by rw [hstatus]; rfl)
    | finished =>
      simp only [deriveBulkJobOutcome] at hactive
      split_ifs at hactive <;> contradiction
    | stamped hp =>
      obtain ⟨job₂, hjob₂, hstatus⟩ := h.finalizing _ j (by rw [hp]; rfl)
      obtain rfl := Option.some.inj (hjob.symm.trans hjob₂)
      rw [show job.status = _ from hstatus] at hactive
      contradiction
    | canceled => contradiction

theorem finalizes_step (hstep : scheduledStep cfg s a = some s') {p j : ℕ} {status : BulkJobStatus}
    (hp : (s'.processes p).finalizes = some (j, status)) :
    (s.processes p).finalizes = some (j, status) ∨ ∃ job, s.jobs j = some job ∧ status = job.status := by
  rcases processes_step hstep p with heq | hmove
  · exact .inl (heq ▸ hp)
  · generalize s.processes p = x at hmove
    generalize s'.processes p = y at hp hmove
    cases hmove with
    | finalizing _ hjob _ =>
      obtain ⟨rfl, rfl⟩ := Prod.mk.inj (Option.some.inj hp)
      exact .inr ⟨_, hjob, rfl⟩
    | drained => exact .inl hp
    | _ => contradiction

theorem drained_step (h : JobInv s) (hstep : scheduledStep cfg s a = some s') {p j : ℕ} {status : BulkJobStatus}
    {progress : BulkJobProgress} (hp : s'.processes p = .drained j status progress) :
    ∀ r ∈ s'.rows, r.bulkJobId = some j → r.status.isOpen = false := by
  rcases processes_step hstep p with heq | hmove
  · have hold := heq ▸ hp
    exact h.closed_after hstep (h.known p j status (by rw [hold]; rfl)) (h.drained p j status progress hold)
  · generalize hx : s.processes p = x at hmove
    rw [hp] at hmove
    cases hmove with
    | drained _ hopen =>
      refine h.closed_after hstep (h.known p j status (by rw [hx]; rfl)) fun r hr hleaf => ?_
      exact isOpen_of_drained hopen hr hleaf

theorem finished_step (h : JobInv s) (hstep : scheduledStep cfg s a = some s') {j : ℕ} {job' : BulkJob}
    (hjob' : s'.jobs j = some job') (hfinished : job'.status.finished = true) :
    ∀ r ∈ s'.rows, r.bulkJobId = some j → r.status.isOpen = false := by
  rcases jobs_step hstep j with ⟨_, _, _, _, _, hnew⟩ | heq | ⟨job, job₁, hjob, hjob₁, hmove⟩
  · obtain rfl := Option.some.inj (hnew.symm.trans hjob')
    contradiction
  · have hjob := heq ▸ hjob'
    have hj : s.jobs j ≠ none := by
      rw [hjob]
      exact Option.some_ne_none _
    exact h.closed_after hstep hj (h.finished j job' hjob hfinished)
  · obtain rfl := Option.some.inj (hjob₁.symm.trans hjob')
    have hj : s.jobs j ≠ none := by
      rw [hjob]
      exact Option.some_ne_none _
    refine h.closed_after hstep hj ?_
    rcases hmove.finished_status hfinished with hbefore | ⟨p, status, progress, -, hp, -⟩
    · exact h.finished j job hjob hbefore
    · exact h.drained p j status progress hp

theorem step (h : JobInv s) (hstep : scheduledStep cfg s a = some s') : JobInv s' where
  wf := h.wf.step hstep
  leaves := fun _ _ _ hp => h.leaves_step hstep hp
  written := fun _ _ _ hp => h.written_step hstep hp
  active := fun _ _ hp => h.active_step hstep hp
  uncompleted := fun _ _ hjob hactive => h.uncompleted_step hstep hjob hactive
  finalizing := fun p j hp => by
    refine canceledJob_step (jobs_step hstep) ?_
    rcases finalizes_step hstep hp with hold | ⟨job, hjob, hstatus⟩
    · exact h.finalizing p j hold
    · exact ⟨job, hjob, hstatus.symm⟩
  known := fun p j status hp => by
    refine (jobs_step hstep).exists_mono ?_
    rcases finalizes_step hstep hp with hold | ⟨job, hjob, -⟩
    · exact h.known p j status hold
    · rw [hjob]
      exact Option.some_ne_none _
  drained := fun _ _ _ _ hp => h.drained_step hstep hp
  finished := fun _ _ hjob hfinished => h.finished_step hstep hjob hfinished

end JobInv

end TeamInbox.Broadcast
