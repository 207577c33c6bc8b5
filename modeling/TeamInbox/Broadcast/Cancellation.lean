import TeamInbox.Broadcast.Lifecycle

/-!
# TeamInbox.Broadcast.Cancellation — when cancelling a broadcast stops it

`cancelBulkJob` cancels the leaves that are `scheduled` or `failed` when its second statement looks, and leaves
those in flight to end on their own.  A claim looks at the status of the leaf only.  So the broadcast stops if
no leaf in flight comes back: an attempt that fails and is retried puts it to `scheduled` again, after the
look or after the commit, and a lease that expires lets the next claim take it (`Undisturbed` excludes both).
-/

namespace TeamInbox.Broadcast

open Lib Tenant

/-- A cancellation of the job has looked at its leaves, or has committed. -/
def Tenant.stopping (s : Tenant) (j : ℕ) : Prop :=
  s.canceledJob j ∨ ∃ p ids, (s.processes p).found = some (j, ids)

/-- No leaf of a stopping job comes back: no attempt that is retried fails, and no lease has expired. -/
def Undisturbed (s : Tenant) : ScheduledAction → Prop
  | .fail p .transient => ∀ now claimUntil h held, s.processes p = .dispatching now claimUntil none (h :: held) →
    h.exhausted false = false → ∀ r ∈ s.rows, r.carries h claimUntil = true →
      ∀ j, r.bulkJobId = some j → ¬ s.stopping j
  | .claimBulk p _ _ => ∀ now claimUntil began, s.processes p = .dispatching now claimUntil began [] →
    ∀ r ∈ s.rows, ∀ j, r.bulkJobId = some j → s.canceledJob j → r.status = .processing → now < r.nextAttemptAt
  | _ => True

def NoFurtherClaim (s : Tenant) (_ : ScheduledAction) (s' : Tenant) : Prop :=
  ∀ j, s.canceledJob j → ∀ r ∈ s.rows, r.bulkJobId = some j → ∀ r' ∈ s'.rows, r'.id = r.id →
    r'.claimNo = r.claimNo

/-- A canceled job that is completed has no open leaf. -/
def StoppedClean (s : Tenant) : Prop :=
  ∀ j job, s.jobs j = some job → job.status = .canceled → job.completedAt ≠ none →
    ∀ r ∈ s.rows, r.bulkJobId = some j → r.status.isOpen = false

def CancelStops (cfg : BulkConfig) (s : Tenant) (as : List ScheduledAction) : Prop :=
  Steps (scheduledStep cfg) NoFurtherClaim s as ∧ Always (scheduledStep cfg) StoppedClean s as

structure CancelInv (s : Tenant) : Prop where
  jobs : JobInv s
  canceled : ∀ j, s.canceledJob j → ∀ r ∈ s.rows, r.bulkJobId = some j → r.status ≠ .scheduled
  found : ∀ p j ids, (s.processes p).found = some (j, ids) →
    ∀ r ∈ s.rows, r.bulkJobId = some j → r.status = .scheduled → r.id ∈ ids
  counted : ∀ p j now ids, s.processes p = .cancelCounted j now ids 0 →
    ∀ r ∈ s.rows, r.bulkJobId = some j → r.status ≠ .processing
  completed : ∀ j job, s.jobs j = some job → job.status = .canceled → job.completedAt ≠ none →
    ∀ r ∈ s.rows, r.bulkJobId = some j → r.status ≠ .processing

namespace CancelInv

variable {cfg : BulkConfig} {s s' : Tenant} {a : ScheduledAction} {r r' : ScheduledMessage}

theorem empty (clock : ℕ → ℕ) : CancelInv (.empty clock) where
  jobs := .empty clock
  canceled := fun _ hj => nomatch hj
  found := fun _ _ _ hp => nomatch hp
  counted := fun _ _ _ _ hp => nomatch hp
  completed := fun _ _ hj => nomatch hj

theorem not_returned (hC : Undisturbed s a) (hmove : RowMove s a r r') (hr : r ∈ s.rows) {j : ℕ}
    (hleaf : r.bulkJobId = some j) (hstop : s.stopping j) (hstatus : r'.status = .scheduled) :
    r.status = .scheduled := by
  rcases hmove.to_scheduled hstatus with hs | ⟨p, now, claimUntil, t, held, rfl, hp, hc, hlast⟩
  · exact hs
  · exact absurd hstop (hC now claimUntil t held hp hlast r hr hc j hleaf)

theorem not_claimed (h : CancelInv s) (hmove : RowMove s a r r') (hr : r ∈ s.rows) {p j : ℕ} {ids : List ℕ}
    (hp : (s.processes p).wrote = some (j, ids)) (hleaf : r.bulkJobId = some j)
    (hstatus : r'.status = .processing) : r.status = .processing := by
  rcases hmove.to_processing hstatus with hs | ⟨hs, hfree, -⟩
  · exact hs
  · have hmem := h.found p j ids (JobInv.wrote_found hp) r hr hleaf hs
    rw [h.jobs.wf.locked_elsewhere (JobInv.wrote_locks hp _ hmem)] at hfree
    contradiction

theorem canceled_step (h : CancelInv s) (hC : Undisturbed s a) (hstep : scheduledStep cfg s a = some s') {j : ℕ}
    (hj : s'.canceledJob j) (hr' : r' ∈ s'.rows) (hleaf : r'.bulkJobId = some j) : r'.status ≠ .scheduled := by
  intro hstatus
  rcases canceledJob_cases (jobs_step hstep) hj with hold | ⟨p, now, ids, n, rfl, hp⟩
  · obtain ⟨job, hjob, -⟩ := id hold
    have hexists : s.jobs j ≠ none := by
      rw [hjob]
      exact Option.some_ne_none _
    obtain ⟨r, hr, hleaf, hmove⟩ := h.jobs.leaf_before hstep hexists hr' hleaf
    exact h.canceled j hold r hr hleaf (not_returned hC hmove hr hleaf (.inl hold) hstatus)
  · -- what was scheduled is among the leaves the commit cancels
    rw [cancelCommit_rows hp hstep] at hr'
    obtain ⟨r, hr, rfl⟩ := List.mem_map.mp hr'
    by_cases hmem : r.id ∈ ids
    · rw [if_pos (decide_eq_true hmem)] at hstatus
      contradiction
    · rw [if_neg (by simp [hmem])] at hstatus hleaf
      exact hmem (h.found p j ids (by rw [hp]; rfl) r hr hleaf hstatus)

theorem found_step (h : CancelInv s) (hC : Undisturbed s a) (hstep : scheduledStep cfg s a = some s') {p j : ℕ}
    {ids : List ℕ} (hp : (s'.processes p).found = some (j, ids)) (hr' : r' ∈ s'.rows)
    (hleaf : r'.bulkJobId = some j) (hstatus : r'.status = .scheduled) : r'.id ∈ ids := by
  have hrow : s.jobs j ≠ none → ∃ r ∈ s.rows, r.bulkJobId = some j ∧ RowMove s a r r' :=
    fun hj => h.jobs.leaf_before hstep hj hr' hleaf
  have hexists : (s.processes p).cancels = some j → s.jobs j ≠ none := by
    intro hp
    obtain ⟨job, hjob, -⟩ := h.jobs.active p j hp
    rw [hjob]
    exact Option.some_ne_none _
  have hkept : ∀ ids, (s.processes p).found = some (j, ids) → (s.processes p).cancels = some j →
      ∃ r ∈ s.rows, r.bulkJobId = some j ∧ RowMove s a r r' ∧ r.status = .scheduled ∧ r.id ∈ ids := by
    intro ids hold hcancels
    obtain ⟨r, hr, hleaf, hmove⟩ := hrow (hexists hcancels)
    have hs := not_returned hC hmove hr hleaf (.inr ⟨p, ids, hold⟩) hstatus
    exact ⟨r, hr, hleaf, hmove, hs, h.found p j ids hold r hr hleaf hs⟩
  have hcancels : ∀ {x : Process} {ids : List ℕ}, x.found = some (j, ids) → x.cancels = some j := by
    intro x ids hx
    cases x <;> simp only [Process.found, Option.some.injEq, Prod.mk.injEq, reduceCtorEq] at hx
    all_goals
      obtain ⟨rfl, -⟩ := hx
      rfl
  rcases processes_step hstep p with heq | hmove
  · rw [heq] at hp
    obtain ⟨r, -, -, hmove, -, hmem⟩ := hkept ids hp (hcancels hp)
    exact hmove.id_eq.1 ▸ hmem
  · generalize hx : s.processes p = x at hmove hkept hexists
    generalize s'.processes p = y at hp hmove
    cases hmove with
    | cancelFound ha =>
      obtain ⟨rfl, rfl⟩ := Prod.mk.inj (Option.some.inj hp)
      obtain ⟨r, hr, hleaf, hmove⟩ := hrow (hexists rfl)
      obtain rfl := hmove.same_of (.inl ⟨p, ha⟩)
      exact List.mem_map_of_mem (List.mem_filter.mpr ⟨hr, by simp [ScheduledMessage.leafOf, hleaf, hstatus]⟩)
    | cancelWritten ha =>
      obtain ⟨rfl, rfl⟩ := Prod.mk.inj (Option.some.inj hp)
      obtain ⟨r, hr, hleaf, hmove, hs, hmem⟩ := hkept _ rfl rfl
      obtain rfl := hmove.same_of (.inr (.inl ⟨p, ha⟩))
      exact List.mem_map_of_mem (List.mem_filter.mpr ⟨hr, by simp [hmem, hs]⟩)
    | cancelCounted =>
      obtain ⟨r, -, -, hmove, -, hmem⟩ := hkept ids hp (hcancels hp)
      exact hmove.id_eq.1 ▸ hmem
    | _ => contradiction

theorem counted_step (h : CancelInv s) (hstep : scheduledStep cfg s a = some s') {p j now : ℕ} {ids : List ℕ}
    (hp : s'.processes p = .cancelCounted j now ids 0) (hr' : r' ∈ s'.rows) (hleaf : r'.bulkJobId = some j) :
    r'.status ≠ .processing := by
  intro hstatus
  have hrow : (s.processes p).cancels = some j → ∃ r ∈ s.rows, r.bulkJobId = some j ∧ RowMove s a r r' := by
    intro hcancels
    obtain ⟨job, hjob, -⟩ := h.jobs.active p j hcancels
    refine h.jobs.leaf_before hstep ?_ hr' hleaf
    rw [hjob]
    exact Option.some_ne_none _
  rcases processes_step hstep p with heq | hmove
  · rw [hp] at heq
    obtain ⟨r, hr, hleaf, hmove⟩ := hrow (by rw [← heq]; rfl)
    have hs := h.not_claimed (p := p) hmove hr (by rw [← heq]; rfl) hleaf hstatus
    exact h.counted p j now ids heq.symm r hr hleaf hs
  · generalize hx : s.processes p = x at hmove hrow
    rw [hp] at hmove
    generalize hn : 0 = n at hmove
    cases hmove with
    | cancelCounted ha =>
      obtain ⟨r, hr, hleaf, hmove⟩ := hrow rfl
      obtain rfl := hmove.same_of (.inr (.inr (.inl ⟨p, ha⟩)))
      have hnone := List.countP_eq_zero.mp hn.symm r' hr
      simp [ScheduledMessage.leafOf, hleaf, hstatus] at hnone

theorem completed_step (h : CancelInv s) (hstep : scheduledStep cfg s a = some s') {j : ℕ} {job' : BulkJob}
    (hjob' : s'.jobs j = some job') (hcanceled : job'.status = .canceled) (hcompleted : job'.completedAt ≠ none)
    (hr' : r' ∈ s'.rows) (hleaf : r'.bulkJobId = some j) : r'.status ≠ .processing := by
  intro hstatus
  have hbefore : ∀ {job : BulkJob}, s.jobs j = some job →
      ∃ r ∈ s.rows, r.bulkJobId = some j ∧ RowMove s a r r' := by
    intro job hjob
    refine h.jobs.leaf_before hstep ?_ hr' hleaf
    rw [hjob]
    exact Option.some_ne_none _
  -- a job that was canceled before has no leaf a claim could take
  have hkept : ∀ job, s.jobs j = some job → job.status = .canceled →
      (∀ r ∈ s.rows, r.bulkJobId = some j → r.status ≠ .processing) → False := by
    intro job hjob hstill hnone
    obtain ⟨r, hr, hleaf, hmove⟩ := hbefore hjob
    rcases hmove.to_processing hstatus with hs | ⟨hs, -⟩
    · exact hnone r hr hleaf hs
    · exact h.canceled j ⟨job, hjob, hstill⟩ r hr hleaf hs
  rcases jobs_step hstep j with ⟨_, _, _, _, _, hnew⟩ | heq | ⟨job, job₁, hjob, hjob₁, hmove⟩
  · obtain rfl := Option.some.inj (hnew.symm.trans hjob')
    contradiction
  · rw [hjob'] at heq
    exact hkept job' heq.symm hcanceled (h.completed j job' heq.symm hcanceled hcompleted)
  · obtain rfl := Option.some.inj (hjob₁.symm.trans hjob')
    cases hmove with
    | same | rescheduled | purged =>
      exact hkept job hjob hcanceled (h.completed j job hjob hcanceled hcompleted)
    | running => contradiction
    | finished =>
      simp only [deriveBulkJobOutcome] at hcanceled
      split_ifs at hcanceled
    | stamped hp =>
      refine hkept job hjob hcanceled fun r hr hleaf hs => ?_
      have hclosed := h.jobs.drained _ _ _ _ hp r hr hleaf
      rw [hs] at hclosed
      contradiction
    | canceled ha hp =>
      rename_i p now n ids
      subst ha
      obtain ⟨job₂, hjob₂, hactive⟩ := h.jobs.active p j (by rw [hp]; rfl)
      obtain rfl := Option.some.inj (hjob.symm.trans hjob₂)
      have hopen := h.jobs.uncompleted j _ hjob hactive
      have hzero : n = 0 := by
        by_contra hne
        rw [if_neg fun hc => hne hc.1] at hcompleted
        exact hcompleted hopen
      subst hzero
      obtain ⟨r, hr, hleaf, hmove⟩ := hbefore hjob
      rcases hmove.to_processing hstatus with hs | ⟨-, -, ⟨_, _, ha, -⟩ | ⟨_, _, _, ha⟩⟩
      · exact h.counted p j now ids hp r hr hleaf hs
      · contradiction
      · contradiction

theorem step (h : CancelInv s) (hC : Undisturbed s a) (hstep : scheduledStep cfg s a = some s') :
    CancelInv s' where
  jobs := h.jobs.step hstep
  canceled := fun _ hj _ hr hleaf => h.canceled_step hC hstep hj hr hleaf
  found := fun _ _ _ hp _ hr hleaf hstatus => h.found_step hC hstep hp hr hleaf hstatus
  counted := fun _ _ _ _ hp _ hr hleaf => h.counted_step hstep hp hr hleaf
  completed := fun _ _ hjob hcanceled hcompleted _ hr hleaf =>
    h.completed_step hstep hjob hcanceled hcompleted hr hleaf

theorem noFurtherClaim (h : CancelInv s) (hC : Undisturbed s a) (hstep : scheduledStep cfg s a = some s') :
    NoFurtherClaim s a s' := by
  intro j hj r hr hleaf r' hr' hid
  have hissued := h.jobs.wf.issued r hr
  obtain ⟨t, ht, hid', hmove⟩ := h.jobs.row_before hstep hissued hr' hid
  obtain rfl := eq_of_id h.jobs.wf.ids ht hr hid'
  cases hmove with
  | claimed hp ha hopen hdue _ =>
    exfalso
    rcases ha with ⟨-, hnone⟩ | ⟨connectionId, rfl, -⟩
    · rw [hleaf] at hnone
      contradiction
    · rcases isOpen_iff.mp hopen with hs | hs
      · exact h.canceled j hj t hr hleaf hs
      · have hlease := hC _ _ _ hp t hr j hleaf hj hs
        omega
  | _ => rfl

theorem stoppedClean (h : CancelInv s) : StoppedClean s := by
  intro j job hjob hcanceled hcompleted r hr hleaf
  have hscheduled := h.canceled j ⟨job, hjob, hcanceled⟩ r hr hleaf
  have hprocessing := h.completed j job hjob hcanceled hcompleted r hr hleaf
  cases hstatus : r.status <;> first | rfl | contradiction

end CancelInv

/-- **Cancelling stops a broadcast** in every run in which no leaf of a stopping job comes back: no leaf of a
canceled job is claimed, and a canceled job that is completed has no open leaf. -/
theorem cancel_stops_broadcast (cfg : BulkConfig) (clock : ℕ → ℕ) (as : List ScheduledAction)
    (h : Meets (scheduledStep cfg) Undisturbed (.empty clock) as) : CancelStops cfg (.empty clock) as := by
  have hsteps := steps_of_meets (R := NoFurtherClaim)
    (fun s a s' hs ha hstep => ⟨CancelInv.step hs ha hstep, hs.noFurtherClaim ha hstep⟩) (CancelInv.empty clock) h
  have hrun := always_of_meets (fun s a s' hs ha hstep => CancelInv.step hs ha hstep) (CancelInv.empty clock) h
  exact ⟨hsteps, hrun.mono fun s hs => hs.stoppedClean⟩

/-- A check that is enough for it: no attempt is to be retried, and nothing is claimed beside a canceled job. -/
def calm (s : Tenant) : ScheduledAction → Bool
  | .fail _ .transient => false
  | .claimBulk .. => s.rows.all fun r => r.bulkJobId.all fun j => (s.jobs j).all fun job =>
    decide (job.status ≠ .canceled)
  | _ => true

theorem undisturbed_of_calm (s : Tenant) (a : ScheduledAction) (h : calm s a = true) : Undisturbed s a := by
  cases a with
  | fail p error =>
    cases error with
    | transient => contradiction
    | bulkSkip | permanent => trivial
  | claimBulk p connectionId skipped =>
    rintro now claimUntil began - r hr j hleaf ⟨job, hjob, hcanceled⟩
    have hnone := List.all_eq_true.mp h r hr
    simp [hleaf, hjob, hcanceled] at hnone
  | _ => trivial

/-- One connection with one contact, and a broadcast to it. -/
def oneRecipient : List ScheduledAction :=
  [.setConnection 1 (some ⟨true, false⟩), .setContact 1 (some ⟨some 1⟩), .createJob 0 7 0 [⟨10, 1, none⟩]]

/-- A cancellation with a leaf in flight, which is then sent. -/
theorem cancel_stops_broadcast_in_flight :
    CancelStops (getBulkConfig none none none) (.empty fun _ => 0)
      (oneRecipient ++ [.capture 1 0, .beginClaim 1, .claimBulk 1 1 [], .markRunning 7, .cancelBegin 2 7,
        .cancelFind 2, .cancelWrite 2, .cancelCount 2, .cancelCommit 2, .send 1 99, .finalizeRead 3 7,
        .finalizeCount 3, .finalizeWrite 3]) :=
  cancel_stops_broadcast _ _ _ ((meets_of_check rfl).mono undisturbed_of_calm)

/-- The attempt in flight fails after the cancellation, and the leaf is claimed again. -/
theorem canceled_leaf_claimed_again :
    ¬ ∀ as, CancelStops (getBulkConfig none none none) (.empty fun _ => 0) as := by
  intro h
  obtain ⟨s₁, s₂, hrun, hlast, hjob, hrows, hrows'⟩ : ∃ s₁ s₂,
      runActions (scheduledStep (getBulkConfig none none none)) (.empty fun _ => 0)
        (oneRecipient ++ [.capture 1 0, .beginClaim 1, .claimBulk 1 1 [], .cancelBegin 2 7, .cancelFind 2,
          .cancelWrite 2, .cancelCount 2, .cancelCommit 2, .fail 1 .transient, .advance 3 60000, .capture 3 0,
          .beginClaim 3]) = some s₁ ∧
      scheduledStep (getBulkConfig none none none) s₁ (.claimBulk 3 1 []) = some s₂ ∧
      (s₁.jobs 7).map (·.status) = some .canceled ∧
      s₁.rows.map (fun r => (r.id, r.bulkJobId, r.claimNo)) = [(10, some 7, 1)] ∧
      s₂.rows.map (fun r => (r.id, r.bulkJobId, r.claimNo)) = [(10, some 7, 2)] :=
    ⟨_, _, rfl, rfl, rfl, rfl, rfl⟩
  have hclaim := Steps.last (h (_ ++ [.claimBulk 3 1 []])).1 hrun hlast
  obtain ⟨job, hjob, hcanceled⟩ := Option.map_eq_some_iff.mp hjob
  obtain ⟨r, hr, hleaf⟩ : ∃ r ∈ s₁.rows, (r.id, r.bulkJobId, r.claimNo) = (10, some 7, 1) := by
    refine List.mem_map.mp ?_
    rw [hrows]
    exact List.mem_singleton_self _
  obtain ⟨r', hr', hleaf'⟩ : ∃ r ∈ s₂.rows, (r.id, r.bulkJobId, r.claimNo) = (10, some 7, 2) := by
    refine List.mem_map.mp ?_
    rw [hrows']
    exact List.mem_singleton_self _
  simp only [Prod.mk.injEq] at hleaf hleaf'
  have hsame := hclaim 7 ⟨job, hjob, hcanceled⟩ r hr hleaf.2.1 r' hr' (hleaf'.1.trans hleaf.1.symm)
  omega

end TeamInbox.Broadcast
