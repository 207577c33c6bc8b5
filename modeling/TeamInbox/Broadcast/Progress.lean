import TeamInbox.Broadcast.Purge

/-!
# TeamInbox.Broadcast.Progress — the progress of a broadcast is conserved

Leaves move between statuses, and a purge turns the leaves it deletes into counters; the total of a job stays
what it was created with and `sent` never falls, as long as a purge has counted what it deletes.  The two
readers of the progress agree in every snapshot.
-/

namespace TeamInbox.Broadcast

open Lib Tenant

/-! ### The two readers -/

namespace BulkJobProgress

def get (p : BulkJobProgress) : ScheduledMessageStatus → ℕ
  | .scheduled => p.pending
  | .processing => p.processing
  | .sent => p.sent
  | .failed => p.failed
  | .canceled => p.canceled
  | .skipped => p.skipped

def Balanced (p : BulkJobProgress) : Prop :=
  p.total = p.pending + p.processing + p.sent + p.failed + p.canceled + p.skipped

theorem eq_of_get {p q : BulkJobProgress} (hp : p.Balanced) (hq : q.Balanced)
    (h : ∀ status, p.get status = q.get status) : p = q := by
  obtain ⟨total, pending, processing, sent, failed, canceled, skipped⟩ := p
  obtain ⟨total', pending', processing', sent', failed', canceled', skipped'⟩ := q
  obtain rfl : pending = pending' := h .scheduled
  obtain rfl : processing = processing' := h .processing
  obtain rfl : sent = sent' := h .sent
  obtain rfl : failed = failed' := h .failed
  obtain rfl : canceled = canceled' := h .canceled
  obtain rfl : skipped = skipped' := h .skipped
  obtain rfl : total = total' := (show total = _ from hp).trans (show total' = _ from hq).symm
  rfl

theorem get_addGroup (p : BulkJobProgress) (status status' : ScheduledMessageStatus) (count : ℕ) :
    (p.addGroup status count).get status' = p.get status' + if status = status' then count else 0 := by
  cases status <;> cases status' <;> rfl

theorem balanced_addGroup {p : BulkJobProgress} (h : p.Balanced) (status : ScheduledMessageStatus) (count : ℕ) :
    (p.addGroup status count).Balanced := by
  unfold Balanced at h ⊢
  cases status <;> simp only [addGroup] <;> omega

theorem balanced_ofRetained (job : BulkJob) : (ofRetained job).Balanced := by
  simp [Balanced, ofRetained]

end BulkJobProgress

section Readers

variable {rows : List ScheduledMessage} {jobs : ℕ → Option BulkJob}

def addGroups (jobId : ℕ) (p : BulkJobProgress) (groups : List ((Option ℕ × ScheduledMessageStatus) × ℕ)) :
    BulkJobProgress :=
  groups.foldl (fun p g => if g.1.1 = some jobId then p.addGroup g.1.2 g.2 else p) p

theorem get_addGroups (jobId : ℕ) (status : ScheduledMessageStatus)
    (groups : List ((Option ℕ × ScheduledMessageStatus) × ℕ)) (p : BulkJobProgress) :
    (addGroups jobId p groups).get status =
      p.get status + ((groups.filter fun g => decide (g.1 = (some jobId, status))).map (·.2)).sum := by
  induction groups generalizing p with
  | nil => rfl
  | cons g groups ih =>
    obtain ⟨⟨job, st⟩, count⟩ := g
    show (addGroups jobId (if job = some jobId then p.addGroup st count else p) groups).get status = _
    rw [ih]
    by_cases hjob : job = some jobId
    · by_cases hst : st = status
      · subst hjob hst
        simp [BulkJobProgress.get_addGroup]
        omega
      · simp [hjob, hst, BulkJobProgress.get_addGroup]
    · simp [hjob]

theorem balanced_addGroups {jobId : ℕ} {p : BulkJobProgress} (h : p.Balanced)
    (groups : List ((Option ℕ × ScheduledMessageStatus) × ℕ)) : (addGroups jobId p groups).Balanced := by
  induction groups generalizing p with
  | nil => exact h
  | cons g groups ih =>
    refine ih ?_
    dsimp only
    by_cases hjob : g.1.1 = some jobId
    · rw [if_pos hjob]
      exact BulkJobProgress.balanced_addGroup h _ _
    · rw [if_neg hjob]
      exact h

theorem find?_addGroups {jobId : ℕ} (groups : List ((Option ℕ × ScheduledMessageStatus) × ℕ))
    {map : Table ℕ BulkJobProgress} {p : BulkJobProgress} (h : map.find? jobId = some p) :
    (groups.foldl (fun map row => match row.1.1 with
      | some jobId => map.put jobId (((map.find? jobId).getD .zero).addGroup row.1.2 row.2)
      | none => map) map).find? jobId = some (addGroups jobId p groups) := by
  induction groups generalizing map p with
  | nil => exact h
  | cons g groups ih =>
    obtain ⟨⟨job, st⟩, count⟩ := g
    refine ih ?_
    cases job with
    | none => exact h
    | some other =>
      dsimp only
      by_cases hother : other = jobId
      · subst hother
        rw [if_pos rfl, Table.find?_put_self, h]
        rfl
      · rw [if_neg fun heq => hother (Option.some.inj heq), Table.find?_put_ne _ _ (Ne.symm hother)]
        exact h

theorem find?_retained {jobId : ℕ} {job : BulkJob} (hjob : jobs jobId = some job) (ids : List ℕ)
    (map : Table ℕ BulkJobProgress) :
    ((ids.filterMap fun id => (jobs id).map fun job => (id, job)).foldl
      (fun map row => map.put row.1 (.ofRetained row.2)) map).find? jobId =
        if jobId ∈ ids then some (.ofRetained job) else map.find? jobId := by
  induction ids generalizing map with
  | nil => rfl
  | cons id ids ih =>
    cases hid : jobs id with
    | none =>
      rw [List.filterMap_cons_none (by rw [hid]; rfl), ih]
      have hne : jobId ≠ id := by
        rintro rfl
        rw [hjob] at hid
        contradiction
      simp [hne]
    | some other =>
      rw [List.filterMap_cons_some (by rw [hid]; rfl), List.foldl_cons, ih]
      by_cases hmem : jobId ∈ ids
      · rw [if_pos hmem, if_pos (List.mem_cons_of_mem id hmem)]
      · rw [if_neg hmem]
        by_cases heq : jobId = id
        · subst heq
          obtain rfl := Option.some.inj (hid.symm.trans hjob)
          rw [if_pos List.mem_cons_self, Table.find?_put_self]
        · rw [if_neg fun h => (List.mem_cons.mp h).elim heq hmem, Table.find?_put_ne _ _ heq]

theorem sum_byJob {ids : List ℕ} {jobId : ℕ} (hmem : jobId ∈ ids) (status : ScheduledMessageStatus) :
    (((groupCount (fun r => (r.bulkJobId, r.status))
      (rows.filter fun r => r.bulkJobId.any fun id => decide (id ∈ ids))).filter fun g =>
        decide (g.1 = (some jobId, status))).map (·.2)).sum = countLeaves rows jobId status := by
  rw [sum_groupCount, List.countP_filter]
  refine List.countP_congr fun r _ => ?_
  by_cases hleaf : r.bulkJobId = some jobId
  · simp [ScheduledMessage.leafOf, hleaf, hmem]
  · simp [ScheduledMessage.leafOf, hleaf]

theorem balanced_getBulkJobProgress (jobId : ℕ) : (getBulkJobProgress rows jobs jobId).Balanced :=
  getBulkJobProgress_total rows jobs jobId

theorem getBulkJobProgressMap_find? {ids : List ℕ} {jobId : ℕ} {job : BulkJob} (hmem : jobId ∈ ids)
    (hjob : jobs jobId = some job) :
    (getBulkJobProgressMap rows jobs ids).find? jobId = some (getBulkJobProgress rows jobs jobId) := by
  have hretained := find?_retained hjob ids.dedup .empty
  rw [if_pos (List.mem_dedup.mpr hmem)] at hretained
  refine (find?_addGroups _ hretained).trans ?_
  refine congrArg some (BulkJobProgress.eq_of_get (balanced_addGroups (BulkJobProgress.balanced_ofRetained job) _)
    (balanced_getBulkJobProgress jobId) fun status => ?_)
  rw [get_addGroups, sum_byJob hmem]
  obtain ⟨hpending, hprocessing⟩ := getBulkJobProgress_open rows jobs jobId
  obtain ⟨hsent, hfailed, hcanceled, hskipped⟩ := getBulkJobProgress_closed rows hjob
  cases status <;> simp only [BulkJobProgress.get, BulkJobProgress.ofRetained] <;> omega

theorem countLeaves_sum (rows : List ScheduledMessage) (jobId : ℕ) :
    countLeaves rows jobId .scheduled + countLeaves rows jobId .processing + countLeaves rows jobId .sent +
      countLeaves rows jobId .failed + countLeaves rows jobId .canceled + countLeaves rows jobId .skipped =
        rows.countP (·.leafOf jobId) := by
  unfold countLeaves
  induction rows with
  | nil => rfl
  | cons r rows ih =>
    simp only [List.countP_cons]
    cases r.leafOf jobId
    · simpa using ih
    · cases r.status <;> simp only [Bool.true_and, reduceCtorEq, decide_true, decide_false,
        if_true, Bool.false_eq_true, if_false] <;> omega

end Readers

/-! ### Conservation -/

/-- The total of every job is what it was created with. -/
def TotalKept (s : Tenant) : Prop :=
  ∀ j job, s.jobs j = some job →
    (getBulkJobProgress s.rows s.jobs j).total = job.totalRecipients + job.skippedRecipients

def ReadersAgree (s : Tenant) : Prop :=
  ∀ ids, ∀ j ∈ ids, s.jobs j ≠ none →
    (getBulkJobProgressMap s.rows s.jobs ids).find? j = some (getBulkJobProgress s.rows s.jobs j)

/-- A job keeps the counts it was created with, and loses nothing that was sent. -/
def SentKept (s : Tenant) (_ : ScheduledAction) (s' : Tenant) : Prop :=
  ∀ j job, s.jobs j = some job → ∃ job', s'.jobs j = some job' ∧
    job'.totalRecipients = job.totalRecipients ∧ job'.skippedRecipients = job.skippedRecipients ∧
    (getBulkJobProgress s.rows s.jobs j).sent ≤ (getBulkJobProgress s'.rows s'.jobs j).sent

def ProgressConserved (cfg : BulkConfig) (s : Tenant) (as : List ScheduledAction) : Prop :=
  Always (scheduledStep cfg) (fun s => TotalKept s ∧ ReadersAgree s) s as ∧ Steps (scheduledStep cfg) SentKept s as

def BulkJob.purged (job : BulkJob) : ℕ := job.purgedSent + job.purgedFailed + job.purgedCanceled + job.purgedSkipped

structure ConservedInv (s : Tenant) : Prop where
  purge : PurgeInv s
  total : ∀ j job, s.jobs j = some job →
    s.rows.countP (·.leafOf j) + job.purged = job.totalRecipients + job.skippedRecipients

namespace ConservedInv

variable {cfg : BulkConfig} {s s' : Tenant} {a : ScheduledAction}

theorem empty (clock : ℕ → ℕ) : ConservedInv (.empty clock) where
  purge := .empty clock
  total := fun _ _ hj => nomatch hj

theorem countP_of_keys {l l' : List ScheduledMessage} (h : l.map (·.purgeKey) = l'.map (·.purgeKey))
    (q : Option ℕ × Bool → Bool) : l.countP (fun r => q r.purgeKey) = l'.countP fun r => q r.purgeKey := by
  have hcount := congrArg (List.countP q) h
  rw [List.countP_map, List.countP_map] at hcount
  exact hcount

theorem deleted_count (h : PurgeInv s) {p connectionId : ℕ} {contactRows ids : List ℕ}
    {counted : List ScheduledMessage} (hp : s.processes p = .purgeDeleted connectionId contactRows counted ids)
    (j : ℕ) (q : Bool → Bool) :
    (s.rows.filter fun r => decide (r.id ∈ ids)).countP (fun r => r.leafOf j && q (decide (r.status = .sent))) =
      counted.countP fun r => r.leafOf j && q (decide (r.status = .sent)) := by
  refine Eq.trans ?_ (countP_of_keys (h.deleted p _ _ _ _ hp) fun k => decide (k.1 = some j) && q k.2)
  rw [List.countP_filter, List.countP_filter]
  refine List.countP_congr fun r _ => ?_
  by_cases hleaf : r.bulkJobId = some j
  · simp [ScheduledMessage.leafOf, ScheduledMessage.purgeKey, hleaf]
  · simp [ScheduledMessage.leafOf, ScheduledMessage.purgeKey, hleaf]

theorem countP_split (counted : List ScheduledMessage) (j : ℕ) :
    (counted.countP fun r => r.leafOf j && r.status == .sent) +
      (counted.countP fun r => r.leafOf j && r.status == .failed) +
      (counted.countP fun r => r.leafOf j && r.status == .canceled) +
      (counted.countP fun r => r.leafOf j && (r.status != .sent && r.status != .failed && r.status != .canceled)) =
        counted.countP (·.leafOf j) := by
  induction counted with
  | nil => rfl
  | cons r counted ih =>
    simp only [List.countP_cons]
    cases r.leafOf j
    · simpa using ih
    · have hsent : ∀ st : ScheduledMessageStatus, ((if (st == .sent) = true then 1 else 0) +
          (if (st == .failed) = true then 1 else 0) + (if (st == .canceled) = true then 1 else 0) +
          if (st != .sent && st != .failed && st != .canceled) = true then 1 else 0) = 1 := by
        intro st
        cases st <;> rfl
      have hone := hsent r.status
      simp only [Bool.true_and, if_true]
      omega

theorem purged_purgeJob (counted : List ScheduledMessage) (j : ℕ) (job : BulkJob) :
    (purgeJob counted j job).purged = job.purged + counted.countP (·.leafOf j) := by
  rw [← countP_split counted j]
  simp only [BulkJob.purged, purgeJob]
  omega

theorem purgeCommit_spec {p : ℕ} (hstep : scheduledStep cfg s (.purgeCommit p) = some s') :
    ∃ connectionId contactRows counted ids,
      s.processes p = .purgeDeleted connectionId contactRows counted ids ∧
      s'.rows = s.rows.filter (fun r => !decide (r.id ∈ ids)) ∧
      s'.jobs = fun j => (s.jobs j).map (purgeJob counted j) := by
  simp only [scheduledStep] at hstep
  split at hstep
  · rename_i connectionId contactRows counted ids hp
    obtain rfl := Option.some.inj hstep
    exact ⟨connectionId, contactRows, counted, ids, hp, rfl, rfl⟩
  · contradiction

theorem createJob_spec {p jobId scheduledAt : ℕ} {recipients : List Recipient}
    (hstep : scheduledStep cfg s (.createJob p jobId scheduledAt recipients) = some s') :
    s.jobs jobId = none ∧ s'.rows = s.rows ++ newLeaves jobId scheduledAt (s.clock p) recipients ∧
      s'.jobs jobId = some (newJob scheduledAt recipients) := by
  simp only [scheduledStep] at hstep
  split_ifs at hstep with hguard
  obtain rfl := Option.some.inj hstep
  exact ⟨hguard.1, rfl, Function.update_self _ _ _⟩

theorem jobMove_counters {j : ℕ} {job job' : BulkJob} (h : JobMove s a j job job')
    (ha : ∀ p, a ≠ .purgeCommit p) : job'.purged = job.purged ∧ job'.purgedSent = job.purgedSent ∧
      job'.totalRecipients = job.totalRecipients ∧ job'.skippedRecipients = job.skippedRecipients := by
  cases h with
  | purged hp => exact absurd hp (ha _)
  | _ => exact ⟨rfl, rfl, rfl, rfl⟩

theorem sent_stays (h : JobInv s) {r r' : ScheduledMessage} (hr : r ∈ s.rows) (hmove : RowMove s a r r')
    (hsent : r.status = .sent) : r'.status = .sent := by
  have hopen : ¬ r.status.isOpen = true := by
    rw [hsent]
    exact nofun
  have hclaimed : r.status ≠ .processing := by
    rw [hsent]
    exact nofun
  cases hmove with
  | same | rescheduled => exact hsent
  | claimed _ _ ho => exact absurd ho hopen
  | swept _ _ ho => exact absurd ho hopen
  | sent => rfl
  | autoCanceled _ _ hc => exact absurd (carries_id hc).2.1 hclaimed
  | failed _ _ hc => exact absurd (carries_id hc).2.1 hclaimed
  | skipped _ _ hc => exact absurd (carries_id hc).2.1 hclaimed
  | canceled _ hp hmem =>
    rcases h.written _ _ _ (by rw [hp]; rfl) r hr hmem with hs | hs <;>
    · rw [hsent] at hs
      contradiction

theorem new_elsewhere {new : List ScheduledMessage}
    (hnew : (∃ p id contactId scheduledAt, a = .schedule p id contactId scheduledAt ∧
        new = [.fresh id contactId none scheduledAt (s.clock p) none]) ∨
      ∃ p jobId scheduledAt recipients, a = .createJob p jobId scheduledAt recipients ∧
        s.jobs jobId = none ∧ new = newLeaves jobId scheduledAt (s.clock p) recipients)
    {j : ℕ} (hj : s.jobs j ≠ none) : ∀ r ∈ new, r.bulkJobId ≠ some j := by
  intro r hr hleaf
  rcases hnew with ⟨_, _, _, _, -, rfl⟩ | ⟨_, jobId, _, recipients, -, hjob, rfl⟩
  · obtain rfl := List.mem_singleton.mp hr
    contradiction
  · obtain ⟨recipient, -, rfl⟩ := List.mem_map.mp hr
    obtain rfl := Option.some.inj hleaf
    exact hj hjob

theorem rows_counts (h : JobInv s) (hstep : scheduledStep cfg s a = some s') (ha : ∀ p, a ≠ .purgeCommit p)
    {j : ℕ} (hj : s.jobs j ≠ none) : s'.rows.countP (·.leafOf j) = s.rows.countP (·.leafOf j) ∧
      countLeaves s.rows j .sent ≤ countLeaves s'.rows j .sent := by
  cases rows_step h.wf.ids hstep with
  | moved f hmap _ hmove =>
    rw [hmap]
    refine ⟨countP_map_of_iff fun r hr => ?_, countP_le_countP_map fun r hr hq => ?_⟩
    · unfold ScheduledMessage.leafOf
      rw [(hmove r hr).id_eq.2.1]
    · simp only [ScheduledMessage.leafOf, Bool.and_eq_true, decide_eq_true_eq] at hq ⊢
      exact ⟨(hmove r hr).id_eq.2.1.trans hq.1, sent_stays h hr (hmove r hr) hq.2⟩
  | created new happ _ _ _ hnew =>
    have hnone : ∀ q : ScheduledMessage → Bool, new.countP (fun r => r.leafOf j && q r) = 0 := by
      intro q
      refine List.countP_eq_zero.mpr fun r hr hq => ?_
      exact new_elsewhere hnew hj r hr (of_decide_eq_true (Bool.and_eq_true_iff.mp hq).1)
    have hall := hnone fun _ => true
    simp only [Bool.and_true] at hall
    unfold countLeaves
    rw [happ, List.countP_append, List.countP_append, hall, hnone]
    exact ⟨rfl, le_refl _⟩
  | purged hp => exact absurd hp (ha _)

theorem total_step (h : ConservedInv s) (hstep : scheduledStep cfg s a = some s') {j : ℕ} {job' : BulkJob}
    (hjob' : s'.jobs j = some job') :
    s'.rows.countP (·.leafOf j) + job'.purged = job'.totalRecipients + job'.skippedRecipients := by
  by_cases ha : ∃ p, a = .purgeCommit p
  · obtain ⟨p, rfl⟩ := ha
    obtain ⟨connectionId, contactRows, counted, ids, hp, hrows, hjobs⟩ := purgeCommit_spec hstep
    rw [hjobs] at hjob'
    obtain ⟨job, hjob, rfl⟩ := Option.map_eq_some_iff.mp hjob'
    have hsplit := countP_filter_add (fun r : ScheduledMessage => r.leafOf j) (fun r => decide (r.id ∈ ids)) s.rows
    have hdeleted := deleted_count h.purge hp j fun _ => true
    simp only [Bool.and_true] at hdeleted
    have htotal := h.total j job hjob
    rw [hrows, purged_purgeJob]
    show _ = job.totalRecipients + job.skippedRecipients
    omega
  · have hnot : ∀ p, a ≠ .purgeCommit p := fun p hp => ha ⟨p, hp⟩
    rcases jobs_step hstep j with ⟨p, scheduledAt, recipients, rfl, hnone, hnew⟩ | heq |
      ⟨job, job₁, hjob, hjob₁, hmove⟩
    · obtain rfl := Option.some.inj (hnew.symm.trans hjob')
      have hold : s.rows.countP (·.leafOf j) = 0 :=
        List.countP_eq_zero.mpr fun r hr hq => h.purge.jobs.wf.jobs r hr j (of_decide_eq_true hq) hnone
      have hleaves : (newLeaves j scheduledAt (s.clock p) recipients).countP (·.leafOf j) = recipients.length := by
        unfold newLeaves
        rw [List.countP_map]
        exact List.countP_eq_length.mpr fun r _ => decide_eq_true rfl
      have hsplit : recipients.length =
          recipients.countP (·.skipReason.isNone) + recipients.countP (·.skipReason.isSome) := by
        refine (List.length_eq_countP_add_countP fun r : Recipient => r.skipReason.isNone).trans ?_
        congr 1
        refine List.countP_congr fun r _ => ?_
        cases r.skipReason <;> simp
      rw [(createJob_spec hstep).2.1, List.countP_append, hold, hleaves]
      simp only [BulkJob.purged, newJob]
      omega
    · rw [hjob'] at heq
      rw [(rows_counts h.purge.jobs hstep hnot (by rw [← heq]; exact Option.some_ne_none _)).1]
      exact h.total j job' heq.symm
    · obtain rfl := Option.some.inj (hjob₁.symm.trans hjob')
      obtain ⟨hpurged, -, htotal, hskipped⟩ := jobMove_counters hmove hnot
      rw [(rows_counts h.purge.jobs hstep hnot (by rw [hjob]; exact Option.some_ne_none _)).1, hpurged, htotal,
        hskipped]
      exact h.total j job hjob

theorem step (h : ConservedInv s) (hC : NoLateLeaf s a) (hstep : scheduledStep cfg s a = some s') :
    ConservedInv s' where
  purge := h.purge.step hC hstep
  total := fun _ _ hjob' => h.total_step hstep hjob'

theorem totalKept (h : ConservedInv s) : TotalKept s := by
  intro j job hjob
  obtain ⟨hpending, hprocessing⟩ := getBulkJobProgress_open s.rows s.jobs j
  obtain ⟨hsent, hfailed, hcanceled, hskipped⟩ := getBulkJobProgress_closed s.rows hjob
  have hsum := countLeaves_sum s.rows j
  have htotal := h.total j job hjob
  simp only [BulkJob.purged] at htotal
  rw [getBulkJobProgress_total]
  omega

theorem readersAgree (s : Tenant) : ReadersAgree s := by
  intro ids j hmem hj
  obtain ⟨job, hjob⟩ := Option.ne_none_iff_exists'.mp hj
  exact getBulkJobProgressMap_find? hmem hjob

theorem sentKept (h : ConservedInv s) (hstep : scheduledStep cfg s a = some s') : SentKept s a s' := by
  intro j job hjob
  have hj : s.jobs j ≠ none := by
    rw [hjob]
    exact Option.some_ne_none _
  obtain ⟨hsent, -⟩ := getBulkJobProgress_closed s.rows hjob
  by_cases ha : ∃ p, a = .purgeCommit p
  · obtain ⟨p, rfl⟩ := ha
    obtain ⟨connectionId, contactRows, counted, ids, hp, hrows, hjobs⟩ := purgeCommit_spec hstep
    have hjob' : s'.jobs j = some (purgeJob counted j job) := by
      rw [hjobs]
      show (s.jobs j).map _ = _
      rw [hjob]
      rfl
    obtain ⟨hsent', -⟩ := getBulkJobProgress_closed s'.rows hjob'
    refine ⟨_, hjob', rfl, rfl, ?_⟩
    have hsplit := countP_filter_add (fun r : ScheduledMessage => r.leafOf j && decide (r.status = .sent))
      (fun r => decide (r.id ∈ ids)) s.rows
    have hdeleted := deleted_count h.purge hp j id
    simp only [id_eq] at hdeleted
    have hraised : (purgeJob counted j job).purgedSent =
        job.purgedSent + counted.countP fun r => r.leafOf j && decide (r.status = .sent) := rfl
    rw [hsent, hsent', hraised, hrows]
    unfold countLeaves
    omega
  · have hnot : ∀ p, a ≠ .purgeCommit p := fun p hp => ha ⟨p, hp⟩
    have hcounts := (rows_counts h.purge.jobs hstep hnot hj).2
    have hkept : ∀ job', s'.jobs j = some job' → job'.purgedSent = job.purgedSent →
        (getBulkJobProgress s.rows s.jobs j).sent ≤ (getBulkJobProgress s'.rows s'.jobs j).sent := by
      intro job' hjob' hpurged
      rw [hsent, (getBulkJobProgress_closed s'.rows hjob').1, hpurged]
      omega
    rcases jobs_step hstep j with ⟨_, _, _, _, hnone, _⟩ | heq | ⟨job₁, job', hjob₁, hjob', hmove⟩
    · exact absurd hnone hj
    · exact ⟨job, heq.trans hjob, rfl, rfl, hkept job (heq.trans hjob) rfl⟩
    · obtain rfl := Option.some.inj (hjob.symm.trans hjob₁)
      obtain ⟨-, hpurged, htotal, hskipped⟩ := jobMove_counters hmove hnot
      exact ⟨job', hjob', htotal, hskipped, hkept job' hjob' hpurged⟩

end ConservedInv

/-- **The progress of a broadcast is conserved** in every run in which no broadcast to a contact of a purge is
created between the purge's count and its delete. -/
theorem broadcast_progress_conserved (cfg : BulkConfig) (clock : ℕ → ℕ) (as : List ScheduledAction)
    (h : Meets (scheduledStep cfg) NoLateLeaf (.empty clock) as) : ProgressConserved cfg (.empty clock) as := by
  have hrun := always_of_meets (fun s a s' hs ha hstep => ConservedInv.step hs ha hstep) (ConservedInv.empty clock) h
  have hsteps := steps_of_meets (R := SentKept)
    (fun s a s' hs ha hstep => ⟨ConservedInv.step hs ha hstep, hs.sentKept hstep⟩) (ConservedInv.empty clock) h
  exact ⟨hrun.mono fun s hs => ⟨hs.totalKept, ConservedInv.readersAgree s⟩, hsteps⟩

/-- A broadcast whose contacts are not locked is never late. -/
def unlockedRecipients (s : Tenant) : ScheduledAction → Bool
  | .createJob _ _ _ recipients => recipients.all fun recipient => s.unlocked (.contact recipient.contactId)
  | _ => true

theorem noLateLeaf_of_unlocked {s : Tenant} {a : ScheduledAction} (h : Wf s) (ha : unlockedRecipients s a = true) :
    NoLateLeaf s a := by
  cases a with
  | createJob p jobId scheduledAt recipients =>
    intro q connectionId contactRows counted hq recipient hmem hon
    have hpurges : (s.processes q).purges = some (connectionId, contactRows) := by
      rw [hq]
      rfl
    have hlocked := (h.purge_locks hpurges).2 recipient.contactId hon
    rw [List.all_eq_true.mp ha recipient hmem] at hlocked
    contradiction
  | _ => trivial

/-- Two connections with a contact each; the first is archived. -/
def archivedConnection : List ScheduledAction :=
  [.setConnection 1 (some ⟨true, false⟩), .setContact 1 (some ⟨some 1⟩), .setConnection 2 (some ⟨true, false⟩),
    .setContact 2 (some ⟨some 2⟩), .setConnection 1 (some ⟨true, true⟩)]

/-- A broadcast to both contacts, and the purge of the archived connection. -/
theorem broadcast_progress_conserved_purge :
    ProgressConserved (getBulkConfig none none none) (.empty fun _ => 0)
      (archivedConnection ++ [.createJob 0 7 0 [⟨10, 2, none⟩, ⟨11, 1, some .connectionArchived⟩], .capture 2 0,
        .beginClaim 2, .claimBulk 2 2 [], .purgeLock 1 1, .purgeCount 1, .send 2 99, .purgeDelete 1,
        .purgeCommit 1]) :=
  broadcast_progress_conserved _ _ _
    (Meets.strengthen (fun _ _ _ h hstep => Wf.step h hstep) (Wf.empty _) (meets_of_check rfl)
      fun _ _ => noLateLeaf_of_unlocked)

/-- A broadcast to a contact of an archived connection and to another, created while the purge of the connection
has counted and not deleted. -/
def createdInPurge : List ScheduledAction :=
  archivedConnection ++ [.purgeLock 1 1, .purgeCount 1,
    .createJob 0 7 0 [⟨10, 2, none⟩, ⟨11, 1, some .connectionArchived⟩], .purgeDelete 1, .purgeCommit 1]

theorem created_in_purge_lost : ¬ ∀ as, ProgressConserved (getBulkConfig none none none) (.empty fun _ => 0) as := by
  intro h
  obtain ⟨s, hrun, hjob, htotal⟩ : ∃ s,
      runActions (scheduledStep (getBulkConfig none none none)) (.empty fun _ => 0) createdInPurge = some s ∧
      (s.jobs 7).map (fun job => job.totalRecipients + job.skippedRecipients) = some 2 ∧
      (getBulkJobProgress s.rows s.jobs 7).total = 1 :=
    ⟨_, rfl, rfl, rfl⟩
  obtain ⟨job, hjob, hcreated⟩ := Option.map_eq_some_iff.mp hjob
  have hkept := (always_iff_reached.mp (h createdInPurge).1 createdInPurge [] s (List.append_nil _).symm hrun).1
    7 job hjob
  omega

end TeamInbox.Broadcast
