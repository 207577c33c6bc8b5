import TeamInbox.Broadcast.System

/-!
# TeamInbox.Broadcast.Moves — what a step can do

Every step rewrites rows in place, adds rows with new identifiers or deletes the rows of a purge
(`RowsChange`); a row, a job and a process move in the ways of `RowMove`, `JobMove` and `ProcessMove`.  The
invariants of the following modules are proved from these moves and never look at the step again.
-/

namespace TeamInbox.Broadcast

open Lib Tenant

section Moves

variable (s : Tenant) (a : ScheduledAction)

inductive RowMove (r : ScheduledMessage) : ScheduledMessage → Prop
  | same : RowMove r r
  | claimed {p now claimUntil : ℕ} {began : Option ℕ} {skipped : List ℕ}
      (hp : s.processes p = .dispatching now claimUntil began [])
      (ha : a = .claimDue p skipped ∧ r.bulkJobId = none ∨
        ∃ connectionId, a = .claimBulk p connectionId skipped ∧ r.bulkJobId ≠ none)
      (hopen : r.status.isOpen = true) (hdue : r.nextAttemptAt ≤ now)
      (hfree : s.unlocked (.leaf r.id) = true) : RowMove r (r.claimedUntil claimUntil)
  | sent {p now claimUntil messageId : ℕ} {h : ScheduledMessage} {held : List ScheduledMessage}
      (ha : a = .send p messageId) (hp : s.processes p = .dispatching now claimUntil none (h :: held))
      (hc : r.carries h claimUntil = true) (hfree : s.unlocked (.leaf r.id) = true)
      (hreach : s.reachable h = true) : RowMove r (r.dispatched h messageId)
  | autoCanceled {p now claimUntil : ℕ} {h : ScheduledMessage} {held : List ScheduledMessage}
      (ha : a = .cancelAutoReply p) (hp : s.processes p = .dispatching now claimUntil none (h :: held))
      (hc : r.carries h claimUntil = true) (hfree : s.unlocked (.leaf r.id) = true)
      (hjob : h.bulkJobId = none) : RowMove r r.canceled
  | failed {p now claimUntil : ℕ} {h : ScheduledMessage} {held : List ScheduledMessage} {permanent : Bool}
      (ha : a = .fail p (if permanent then .permanent else .transient))
      (hp : s.processes p = .dispatching now claimUntil none (h :: held))
      (hc : r.carries h claimUntil = true) (hfree : s.unlocked (.leaf r.id) = true) :
      RowMove r (r.dispatchFailed h (s.clock p) permanent)
  | skipped {p now claimUntil : ℕ} {h : ScheduledMessage} {held : List ScheduledMessage}
      {reason : BulkRecipientSkipReason} (ha : a = .fail p (.bulkSkip reason))
      (hp : s.processes p = .dispatching now claimUntil none (h :: held))
      (hc : r.carries h claimUntil = true) (hfree : s.unlocked (.leaf r.id) = true) :
      RowMove r (r.bulkSkipped h reason)
  | swept {p now claimUntil : ℕ} {reason : BulkRecipientSkipReason} {ids : List ℕ} (ha : a = .sweepWrite p)
      (hp : s.processes p = .sweeping now claimUntil reason ids) (hopen : r.status.isOpen = true)
      (hfree : s.unlocked (.leaf r.id) = true) : RowMove r (r.swept reason)
  | rescheduled {jobId scheduledAt : ℕ} (ha : a = .reschedule jobId scheduledAt)
      (hleaf : r.leafOf jobId = true) (hstatus : r.status = .scheduled ∨ r.status = .skipped)
      (hfree : s.unlocked (.leaf r.id) = true) : RowMove r (r.rescheduled scheduledAt)
  | canceled {p jobId now n : ℕ} {ids : List ℕ} (ha : a = .cancelCommit p)
      (hp : s.processes p = .cancelCounted jobId now ids n) (hmem : r.id ∈ ids) : RowMove r r.canceled

inductive NewRow : ScheduledMessage → Prop
  | message {p id scheduledAt : ℕ} {contactId : Option ℕ} (ha : a = .schedule p id contactId scheduledAt) :
      NewRow (.fresh id contactId none scheduledAt (s.clock p) none)
  | leaf {p jobId scheduledAt : ℕ} {recipients : List Recipient} {recipient : Recipient}
      (ha : a = .createJob p jobId scheduledAt recipients) (hjob : s.jobs jobId = none)
      (hmem : recipient ∈ recipients) :
      NewRow (.fresh recipient.leafId (some recipient.contactId) (some jobId) scheduledAt (s.clock p)
        recipient.skipReason)

inductive RowsChange (s' : Tenant) : Prop
  | moved (f : ScheduledMessage → ScheduledMessage) (hrows : s'.rows = s.rows.map f)
      (hissued : s'.issued = s.issued) (hmove : ∀ r ∈ s.rows, RowMove s a r (f r))
  | created (new : List ScheduledMessage) (hrows : s'.rows = s.rows ++ new)
      (hissued : s'.issued = new.map (·.id) ++ s.issued) (hnodup : (new.map (·.id)).Nodup)
      (hfresh : ∀ r ∈ new, r.id ∉ s.issued)
      (hnew : (∃ p id contactId scheduledAt, a = .schedule p id contactId scheduledAt ∧
          new = [.fresh id contactId none scheduledAt (s.clock p) none]) ∨
        ∃ p jobId scheduledAt recipients, a = .createJob p jobId scheduledAt recipients ∧
          s.jobs jobId = none ∧ new = newLeaves jobId scheduledAt (s.clock p) recipients)
  | purged {p connectionId : ℕ} {contactRows ids : List ℕ} {counted : List ScheduledMessage}
      (ha : a = .purgeCommit p) (hp : s.processes p = .purgeDeleted connectionId contactRows counted ids)
      (hrows : s'.rows = s.rows.filter fun r => !decide (r.id ∈ ids)) (hissued : s'.issued = s.issued)

inductive JobMove (jobId : ℕ) (job : BulkJob) : BulkJob → Prop
  | same : JobMove jobId job job
  | running (hfree : s.unlocked (.job jobId) = true) (hstatus : job.status = .scheduled) :
      JobMove jobId job { job with status := .running }
  | finished {p : ℕ} {status : BulkJobStatus} {progress : BulkJobProgress} (ha : a = .finalizeWrite p)
      (hp : s.processes p = .drained jobId status progress) (hfree : s.unlocked (.job jobId) = true)
      (hstatus : status ≠ .canceled) (hactive : job.status.isActive = true) :
      JobMove jobId job { job with
        status := deriveBulkJobOutcome progress
        completedAt := some (s.clock p) }
  | stamped {p : ℕ} {progress : BulkJobProgress} (hp : s.processes p = .drained jobId .canceled progress) :
      JobMove jobId job { job with
        completedAt := if job.completedAt.isNone then some (s.clock p) else job.completedAt }
  | rescheduled {scheduledAt : ℕ} (hfree : s.unlocked (.job jobId) = true) :
      JobMove jobId job { job with scheduledAt := scheduledAt }
  | canceled {p now n : ℕ} {ids : List ℕ} (ha : a = .cancelCommit p)
      (hp : s.processes p = .cancelCounted jobId now ids n) :
      JobMove jobId job { job with
        status := .canceled
        canceledAt := some now
        completedAt := if n = 0 ∧ job.completedAt.isNone then some now else job.completedAt }
  | purged {p connectionId : ℕ} {contactRows ids : List ℕ} {counted : List ScheduledMessage}
      (ha : a = .purgeCommit p) (hp : s.processes p = .purgeDeleted connectionId contactRows counted ids) :
      JobMove jobId job (purgeJob counted jobId job)

/-- What a step to `s'` can do to a process. -/
inductive ProcessMove (s' : Tenant) (p : ℕ) : Process → Process → Prop
  | ended (x : Process) : ProcessMove s' p x .idle
  | captured (delay : ℕ) (hclock : s'.clock p = s.clock p + delay) : ProcessMove s' p .idle
      (.dispatching (s.clock p) (s.clock p + delay + claimLeaseMs) none [])
  | began {now claimUntil : ℕ} : ProcessMove s' p (.dispatching now claimUntil none [])
      (.dispatching now claimUntil (some (currentDate s.now)) [])
  | claimed {now claimUntil : ℕ} {began : Option ℕ} {claimed : List ScheduledMessage}
      (hmem : ∀ h ∈ claimed, h ∈ s.rows) (hrows : s'.rows = (s.claimRows claimUntil claimed).rows) :
      ProcessMove s' p (.dispatching now claimUntil began []) (.dispatching now claimUntil none claimed)
  | settled {now claimUntil : ℕ} {h : ScheduledMessage} {held : List ScheduledMessage} :
      ProcessMove s' p (.dispatching now claimUntil none (h :: held)) (.dispatching now claimUntil none held)
  | sweeping {now claimUntil : ℕ} {reason : BulkRecipientSkipReason} {ids : List ℕ}
      (hmem : ∀ i ∈ ids, ∃ r ∈ s.rows, r.id = i) :
      ProcessMove s' p (.dispatching now claimUntil none []) (.sweeping now claimUntil reason ids)
  | swept {now claimUntil : ℕ} {reason : BulkRecipientSkipReason} {ids : List ℕ} :
      ProcessMove s' p (.sweeping now claimUntil reason ids) (.dispatching now claimUntil none [])
  | finalizing {jobId : ℕ} {job : BulkJob} (ha : a = .finalizeRead p jobId) (hjob : s.jobs jobId = some job)
      (hstatus : job.status.finished = false) : ProcessMove s' p .idle (.finalizing jobId job.status)
  | drained {jobId : ℕ} {status : BulkJobStatus} (ha : a = .finalizeCount p)
      (hopen : (getBulkJobProgress s.rows s.jobs jobId).pending +
        (getBulkJobProgress s.rows s.jobs jobId).processing = 0) :
      ProcessMove s' p (.finalizing jobId status)
        (.drained jobId status (getBulkJobProgress s.rows s.jobs jobId))
  | canceling {jobId : ℕ} {job : BulkJob} (ha : a = .cancelBegin p jobId) (hjob : s.jobs jobId = some job)
      (hactive : job.status.isActive = true) (hfree : s.unlocked (.job jobId) = true) :
      ProcessMove s' p .idle (.canceling jobId (s.clock p))
  | cancelFound {jobId now : ℕ} (ha : a = .cancelFind p) : ProcessMove s' p (.canceling jobId now)
      (.cancelFound jobId now
        ((s.rows.filter fun r => r.leafOf jobId && decide (r.status = .scheduled ∨ r.status = .failed)).map (·.id)))
  | cancelWritten {jobId now : ℕ} {ids : List ℕ} (ha : a = .cancelWrite p) :
      ProcessMove s' p (.cancelFound jobId now ids) (.cancelWritten jobId now ((s.rows.filter fun r => decide (r.id ∈ ids) &&
        decide (r.status = .scheduled ∨ r.status = .failed)).map (·.id)))
  | cancelCounted {jobId now : ℕ} {ids : List ℕ} (ha : a = .cancelCount p) :
      ProcessMove s' p (.cancelWritten jobId now ids) (.cancelCounted jobId now ids
        (s.rows.countP fun r => r.leafOf jobId && decide (r.status = .processing)))
  | purging {connectionId : ℕ} : ProcessMove s' p .idle (.purging connectionId (s.contactsOf connectionId))
  | purgeCounted {connectionId : ℕ} {contactRows : List ℕ} (ha : a = .purgeCount p) :
      ProcessMove s' p (.purging connectionId contactRows) (.purgeCounted connectionId contactRows
        (s.rows.filter fun r => r.bulkJobId.isSome && s.routed connectionId r))
  | purgeDeleted {connectionId : ℕ} {contactRows : List ℕ} {counted : List ScheduledMessage}
      (ha : a = .purgeDelete p) :
      ProcessMove s' p (.purgeCounted connectionId contactRows counted)
        (.purgeDeleted connectionId contactRows counted ((s.rows.filter (s.routed connectionId)).map (·.id)))

end Moves

/-! ### One step -/

inductive StepMove (cfg : BulkConfig) (s : Tenant) : ScheduledAction → Tenant → Prop
  | unchanged (a : ScheduledAction) : StepMove cfg s a s
  | tick (duration : ℕ) : StepMove cfg s (.tick duration) { s with now := s.now + duration }
  | advance (p duration : ℕ) : StepMove cfg s (.advance p duration)
      { s with clock := Function.update s.clock p (s.clock p + duration) }
  | setContact {id : ℕ} {contact : Option Contact} {contacts : Table ℕ Contact} (hfree : s.unlocked (.contact id) = true)
      (hlink : s.admitsLink (contact.bind (·.connectionId)) = true)
      (hcontacts : contacts = contact.elim (s.contacts.erase id) (s.contacts.put id)) :
      StepMove cfg s (.setContact id contact) { s with contacts := contacts }
  | setConnection (id : ℕ) (connection : Option Connection) : StepMove cfg s (.setConnection id connection)
      { s with connections := Function.update s.connections id connection }
  | schedule {p id scheduledAt : ℕ} {contactId : Option ℕ} (hfresh : s.freshIds [id] = true) :
      StepMove cfg s (.schedule p id contactId scheduledAt)
        (s.insertRows [.fresh id contactId none scheduledAt (s.clock p) none])
  | createJob {p jobId scheduledAt : ℕ} {recipients : List Recipient} (hjob : s.jobs jobId = none)
      (hfresh : s.freshIds (recipients.map (·.leafId)) = true) :
      StepMove cfg s (.createJob p jobId scheduledAt recipients)
        ((s.insertRows (newLeaves jobId scheduledAt (s.clock p) recipients)).setJob jobId (newJob scheduledAt recipients))
  | capture {p : ℕ} (delay : ℕ) (hp : s.processes p = .idle) : StepMove cfg s (.capture p delay)
      ({ s with clock := Function.update s.clock p (s.clock p + delay) }.setProcess p
        (.dispatching (s.clock p) (s.clock p + delay + claimLeaseMs) none []))
  | claimDue {p now claimUntil : ℕ} {skipped : List ℕ} (hp : s.processes p = .dispatching now claimUntil none []) :
      StepMove cfg s (.claimDue p skipped) ((s.claimRows claimUntil (s.dueRows now skipped)).setProcess p
        (.dispatching now claimUntil none (s.dueRows now skipped)))
  | beginClaim {p now claimUntil : ℕ} (hp : s.processes p = .dispatching now claimUntil none []) :
      StepMove cfg s (.beginClaim p) (s.setProcess p (.dispatching now claimUntil (some (currentDate s.now)) []))
  | claimBulk {p connectionId now claimUntil date : ℕ} {skipped : List ℕ}
      (hp : s.processes p = .dispatching now claimUntil (some date) []) :
      StepMove cfg s (.claimBulk p connectionId skipped)
        ((s.claimBulkLeafForConnection cfg connectionId now claimUntil date skipped).1.setProcess p
          (.dispatching now claimUntil none (s.claimBulkLeafForConnection cfg connectionId now claimUntil date skipped).2.toList))
  | send {p messageId now claimUntil : ℕ} {h : ScheduledMessage} {held : List ScheduledMessage}
      (hp : s.processes p = .dispatching now claimUntil none (h :: held)) (hreach : s.reachable h = true)
      (hfree : s.unlocked (.leaf h.id) = true) (hc : s.rows.any (·.carries h claimUntil) = true) :
      StepMove cfg s (.send p messageId)
        ({ s.updateRows (·.carries h claimUntil) (·.dispatched h messageId) with
          messages := (h.id, messageId) :: s.messages
          commands := h.id :: s.commands }.setProcess p (.dispatching now claimUntil none held))
  | cancelAutoReply {p now claimUntil : ℕ} {h : ScheduledMessage} {held : List ScheduledMessage}
      (hp : s.processes p = .dispatching now claimUntil none (h :: held)) (hjob : h.bulkJobId = none)
      (hfree : s.unlocked (.leaf h.id) = true) : StepMove cfg s (.cancelAutoReply p)
      ((s.updateRows (·.carries h claimUntil) (·.canceled)).setProcess p (.dispatching now claimUntil none held))
  | bulkSkip {p now claimUntil : ℕ} {h : ScheduledMessage} {held : List ScheduledMessage} {reason : BulkRecipientSkipReason}
      (hp : s.processes p = .dispatching now claimUntil none (h :: held)) (hfree : s.unlocked (.leaf h.id) = true) :
      StepMove cfg s (.fail p (.bulkSkip reason)) ((s.updateRows (·.carries h claimUntil) (·.bulkSkipped h reason)).setProcess p
        (.dispatching now claimUntil none held))
  | fail {p now claimUntil : ℕ} {h : ScheduledMessage} {held : List ScheduledMessage} (permanent : Bool)
      (hp : s.processes p = .dispatching now claimUntil none (h :: held)) (hfree : s.unlocked (.leaf h.id) = true) :
      StepMove cfg s (.fail p (if permanent then .permanent else .transient))
        ((s.updateRows (·.carries h claimUntil) (·.dispatchFailed h (s.clock p) permanent)).setProcess p
          (.dispatching now claimUntil none held))
  | sweepRead {p now claimUntil : ℕ} {orphans : OrphanFilter} {skipped ids : List ℕ}
      (hp : s.processes p = .dispatching now claimUntil none []) (hids : ∀ i ∈ ids, ∃ r ∈ s.rows, r.id = i) :
      StepMove cfg s (.sweepRead p orphans skipped) (s.setProcess p (.sweeping now claimUntil orphans.reason ids))
  | sweepWrite {p now claimUntil : ℕ} {reason : BulkRecipientSkipReason} {ids : List ℕ}
      (hp : s.processes p = .sweeping now claimUntil reason ids)
      (hfree : (s.rowsFree fun r => decide (r.id ∈ ids) && r.status.isOpen) = true) : StepMove cfg s (.sweepWrite p)
      ((s.updateRows (fun r => decide (r.id ∈ ids) && r.status.isOpen) (·.swept reason)).setProcess p
        (.dispatching now claimUntil none []))
  | markRunning {jobId : ℕ} {job : BulkJob} (hjob : s.jobs jobId = some job) (hfree : s.unlocked (.job jobId) = true)
      (hstatus : job.status = .scheduled) : StepMove cfg s (.markRunning jobId) (s.setJob jobId { job with status := .running })
  | finalizeRead {p jobId : ℕ} {job : BulkJob} (hp : s.processes p = .idle) (hjob : s.jobs jobId = some job)
      (hopen : job.status.finished = false) :
      StepMove cfg s (.finalizeRead p jobId) (s.setProcess p (.finalizing jobId job.status))
  | ended (p : ℕ) (a : ScheduledAction) (ha : a = .finalizeCount p ∨ a = .finalizeWrite p)
      (hp : (∃ jobId status, s.processes p = .finalizing jobId status) ∨
        ∃ jobId status progress, s.processes p = .drained jobId status progress) : StepMove cfg s a (s.setProcess p .idle)
  | finalizeCount {p jobId : ℕ} {status : BulkJobStatus} (hp : s.processes p = .finalizing jobId status)
      (hdone : (getBulkJobProgress s.rows s.jobs jobId).pending + (getBulkJobProgress s.rows s.jobs jobId).processing = 0) :
      StepMove cfg s (.finalizeCount p) (s.setProcess p (.drained jobId status (getBulkJobProgress s.rows s.jobs jobId)))
  | stamped {p jobId : ℕ} {progress : BulkJobProgress} {job : BulkJob}
      (hp : s.processes p = .drained jobId .canceled progress) (hjob : s.jobs jobId = some job) :
      StepMove cfg s (.finalizeWrite p) ((s.setJob jobId { job with
        completedAt := if job.completedAt.isNone then some (s.clock p) else job.completedAt }).setProcess p .idle)
  | finalizeWrite {p jobId : ℕ} {status : BulkJobStatus} {progress : BulkJobProgress} {job : BulkJob}
      (hp : s.processes p = .drained jobId status progress) (hjob : s.jobs jobId = some job)
      (hfree : s.unlocked (.job jobId) = true) (hstatus : status ≠ .canceled) (hactive : job.status.isActive = true) :
      StepMove cfg s (.finalizeWrite p) ((s.setJob jobId { job with
        status := deriveBulkJobOutcome progress
        completedAt := some (s.clock p) }).setProcess p .idle)
  | reschedule {jobId scheduledAt : ℕ} {job : BulkJob} (hjob : s.jobs jobId = some job)
      (hfree : s.unlocked (.job jobId) = true) (hrows : s.rowsFree (·.leafOf jobId) = true) :
      StepMove cfg s (.reschedule jobId scheduledAt) ((s.updateRows (s.reschedules jobId)
        (·.rescheduled scheduledAt)).setJob jobId { job with scheduledAt := scheduledAt })
  | cancelBegin {p jobId : ℕ} {job : BulkJob} (hp : s.processes p = .idle) (hjob : s.jobs jobId = some job)
      (hfree : s.unlocked (.job jobId) = true) (hactive : job.status.isActive = true) :
      StepMove cfg s (.cancelBegin p jobId) ((s.lock p [.job jobId]).setProcess p (.canceling jobId (s.clock p)))
  | cancelFind {p jobId now : ℕ} (hp : s.processes p = .canceling jobId now) : StepMove cfg s (.cancelFind p)
      (s.setProcess p (.cancelFound jobId now
        ((s.rows.filter fun r => r.leafOf jobId && decide (r.status = .scheduled ∨ r.status = .failed)).map (·.id))))
  | cancelWrite {p jobId now : ℕ} {ids written : List ℕ} (hp : s.processes p = .cancelFound jobId now ids)
      (hfree : (s.rowsFree fun r => decide (r.id ∈ ids)) = true)
      (hwritten : written = (s.rows.filter fun r => decide (r.id ∈ ids) &&
        decide (r.status = .scheduled ∨ r.status = .failed)).map (·.id)) : StepMove cfg s (.cancelWrite p)
      ((s.lock p (written.map .leaf)).setProcess p (.cancelWritten jobId now written))
  | cancelCount {p jobId now : ℕ} {ids : List ℕ} (hp : s.processes p = .cancelWritten jobId now ids) :
      StepMove cfg s (.cancelCount p) (s.setProcess p (.cancelCounted jobId now ids
        (s.rows.countP fun r => r.leafOf jobId && decide (r.status = .processing))))
  | cancelCommit {p jobId now n : ℕ} {ids : List ℕ} {job : BulkJob} (hp : s.processes p = .cancelCounted jobId now ids n)
      (hjob : s.jobs jobId = some job) : StepMove cfg s (.cancelCommit p)
      (((s.updateRows (fun r => decide (r.id ∈ ids)) (·.canceled)).setJob jobId { job with
        status := .canceled
        canceledAt := some now
        completedAt := if n = 0 ∧ job.completedAt.isNone then some now else job.completedAt }).release p |>.setProcess p .idle)
  | purgeLock {p connectionId : ℕ} (hp : s.processes p = .idle) (hfree : s.unlocked (.connection connectionId) = true)
      (hcontacts : (s.contactsOf connectionId).all (fun c => s.unlocked (.contact c)) = true) :
      StepMove cfg s (.purgeLock p connectionId)
        ((s.lock p (.connection connectionId :: (s.contactsOf connectionId).map .contact)).setProcess p
          (.purging connectionId (s.contactsOf connectionId)))
  | purgeCount {p connectionId : ℕ} {contactRows : List ℕ} (hp : s.processes p = .purging connectionId contactRows) :
      StepMove cfg s (.purgeCount p) (s.setProcess p (.purgeCounted connectionId contactRows
        (s.rows.filter fun r => r.bulkJobId.isSome && s.routed connectionId r)))
  | purgeDelete {p connectionId : ℕ} {contactRows ids : List ℕ} {counted : List ScheduledMessage}
      (hp : s.processes p = .purgeCounted connectionId contactRows counted)
      (hjobs : (counted.filterMap (·.bulkJobId)).all (fun j => s.unlocked (.job j)) = true)
      (hrows : s.rowsFree (s.routed connectionId) = true) (hids : ids = (s.rows.filter (s.routed connectionId)).map (·.id)) :
      StepMove cfg s (.purgeDelete p) ((s.lock p ((counted.filterMap (·.bulkJobId)).map .job ++ ids.map .leaf)).setProcess p
        (.purgeDeleted connectionId contactRows counted ids))
  | purgeCommit {p connectionId : ℕ} {contactRows ids : List ℕ} {counted : List ScheduledMessage}
      (hp : s.processes p = .purgeDeleted connectionId contactRows counted ids) : StepMove cfg s (.purgeCommit p)
      ({ s with
        rows := s.rows.filter fun r => !decide (r.id ∈ ids)
        jobs := fun jobId => (s.jobs jobId).map (purgeJob counted jobId)
        contacts := (s.contactsOf connectionId).foldl .erase s.contacts
        connections := Function.update s.connections connectionId none
        budgets := Function.update s.budgets connectionId none }.release p |>.setProcess p .idle)
  | crash (p : ℕ) : StepMove cfg s (.crash p) ((s.release p).setProcess p .idle)

/-! ### Rows -/

theorem RowMove.id_eq {s : Tenant} {a : ScheduledAction} {r r' : ScheduledMessage} (h : RowMove s a r r') :
    r'.id = r.id ∧ r'.bulkJobId = r.bulkJobId ∧ r'.contactId = r.contactId ∧ r'.claimNo ≥ r.claimNo := by
  cases h <;> refine ⟨rfl, rfl, rfl, ?_⟩
  case claimed => exact Nat.le_succ _
  all_goals exact le_refl _

section Inversion

variable {cfg : BulkConfig} {s s' : Tenant} {a : ScheduledAction}

theorem RowsChange.of_eq (hrows : s'.rows = s.rows) (hissued : s'.issued = s.issued) : RowsChange s a s' :=
  .moved id (by rw [hrows, List.map_id]) hissued fun r _ => .same

theorem RowsChange.of_update {p : ScheduledMessage → Bool} {g : ScheduledMessage → ScheduledMessage}
    (hrows : s'.rows = s.rows.map fun r => if p r then g r else r) (hissued : s'.issued = s.issued)
    (hmove : ∀ r ∈ s.rows, p r = true → RowMove s a r (g r)) : RowsChange s a s' := by
  refine .moved _ hrows hissued fun r hr => ?_
  by_cases hp : p r = true
  · rw [if_pos hp]
    exact hmove r hr hp
  · rw [if_neg hp]
    exact .same

theorem eq_of_id (hids : (s.rows.map (·.id)).Nodup) {r t : ScheduledMessage} (hr : r ∈ s.rows)
    (ht : t ∈ s.rows) (h : r.id = t.id) : r = t :=
  List.inj_on_of_nodup_map hids hr ht h

theorem mem_dueRows {now : ℕ} {skipped : List ℕ} {h : ScheduledMessage} (hh : h ∈ s.dueRows now skipped) :
    h ∈ s.rows ∧ h.bulkJobId = none ∧ h.status.isOpen = true ∧ h.nextAttemptAt ≤ now ∧
      s.unlocked (.leaf h.id) = true := by
  obtain ⟨hsorted, hskip⟩ := List.mem_filter.mp (List.mem_of_mem_take hh)
  obtain ⟨hmem, hcond⟩ := List.mem_filter.mp (((List.perm_insertionSort _ _).mem_iff).mp hsorted)
  simp only [Bool.and_eq_true, decide_eq_true_eq, Option.isNone_iff_eq_none] at hcond
  simp only [notSkipped, Bool.and_eq_true] at hskip
  exact ⟨hmem, hcond.1.1, hcond.1.2, hcond.2, hskip.2⟩

theorem mem_dueLeaf {connectionId now : ℕ} {skipped : List ℕ} {h : ScheduledMessage}
    (hh : s.dueLeaf connectionId now skipped = some h) :
    h ∈ s.rows ∧ h.bulkJobId ≠ none ∧ h.status.isOpen = true ∧ h.nextAttemptAt ≤ now ∧
      s.unlocked (.leaf h.id) = true := by
  obtain ⟨hsorted, hskip⟩ := List.mem_filter.mp (List.mem_of_head? hh)
  obtain ⟨hmem, hcond⟩ := List.mem_filter.mp (((List.perm_insertionSort _ _).mem_iff).mp hsorted)
  simp only [Bool.and_eq_true, decide_eq_true_eq, Option.isSome_iff_ne_none] at hcond
  simp only [notSkipped, Bool.and_eq_true] at hskip
  exact ⟨hmem, hcond.1.1.1, hcond.1.1.2, hcond.1.2, hskip.2⟩

/-- The connection is connected and not archived. -/
def Tenant.sendsOn (s : Tenant) (connectionId : ℕ) : Bool :=
  (s.connections connectionId).any fun connection => connection.connected && !connection.archived

theorem claimBulkLeafForConnection_cases (cfg : BulkConfig) (s : Tenant) (connectionId now claimUntil date : ℕ)
    (skipped : List ℕ) :
    s.claimBulkLeafForConnection cfg connectionId now claimUntil date skipped = (s, none) ∨
    s.claimBulkLeafForConnection cfg connectionId now claimUntil date skipped =
      (s.setBudget connectionId (some (s.budgetFor connectionId now date)), none) ∨
    ∃ leaf sentToday, s.dueLeaf connectionId now skipped = some leaf ∧
      sentToday = (if (s.budgetFor connectionId now date).quotaDate = date
        then (s.budgetFor connectionId now date).sentToday else 0) ∧
      sentToday < cfg.dailyCapPerConnection ∧ (s.budgetFor connectionId now date).nextEligibleAt ≤ now ∧
      s.sendsOn connectionId = true ∧ s.claimBulkLeafForConnection cfg connectionId now claimUntil date skipped =
        ({ (s.claimRows claimUntil [leaf]).setBudget connectionId
            (some ⟨now + cfg.sendIntervalMs, date, sentToday + 1⟩) with
          claims := ⟨connectionId, now, date⟩ :: s.claims }, some leaf) := by
  unfold claimBulkLeafForConnection
  cases hconn : s.connections connectionId with
  | none => exact .inl rfl
  | some connection =>
    right
    dsimp only
    by_cases hpaced : cfg.dailyCapPerConnection ≤ (if (s.budgetFor connectionId now date).quotaDate = date
        then (s.budgetFor connectionId now date).sentToday else 0) ∨
        now < (s.budgetFor connectionId now date).nextEligibleAt
    · rw [if_pos hpaced]
      exact .inl rfl
    · rw [if_neg hpaced]
      by_cases hready : connection.connected = false ∨ connection.archived = true
      · rw [if_pos hready]
        exact .inl rfl
      · rw [if_neg hready]
        cases hleaf : s.dueLeaf connectionId now skipped with
        | none => exact .inl rfl
        | some leaf =>
          obtain ⟨hcap, hnext⟩ := not_or.mp hpaced
          obtain ⟨hconnected, harchived⟩ := not_or.mp hready
          refine .inr ⟨leaf, _, rfl, rfl, by omega, by omega, ?_, rfl⟩
          unfold Tenant.sendsOn
          rw [hconn]
          simp [hconnected, harchived]

theorem claimRows_rows (s : Tenant) (claimUntil : ℕ) (claimed : List ScheduledMessage) :
    (s.claimRows claimUntil claimed).rows =
      s.rows.map fun r => if decide (r.id ∈ claimed.map (·.id)) then r.claimedUntil claimUntil else r := rfl

theorem claimRows_nil (s : Tenant) (claimUntil : ℕ) : (s.claimRows claimUntil []).rows = s.rows := by
  rw [claimRows_rows]
  exact (List.map_congr_left fun r _ => by simp).trans (List.map_id _)

theorem RowsChange.claim (hids : (s.rows.map (·.id)).Nodup) {p now claimUntil : ℕ} {began : Option ℕ}
    (skipped : List ℕ) (claimed : List ScheduledMessage)
    (hp : s.processes p = .dispatching now claimUntil began [])
    (hclaimed : ∀ h ∈ claimed, h ∈ s.rows ∧ (a = .claimDue p skipped ∧ h.bulkJobId = none ∨
      ∃ connectionId, a = .claimBulk p connectionId skipped ∧ h.bulkJobId ≠ none) ∧ h.status.isOpen = true ∧
      h.nextAttemptAt ≤ now ∧ s.unlocked (.leaf h.id) = true)
    (hrows : s'.rows = (s.claimRows claimUntil claimed).rows) (hissued : s'.issued = s.issued) :
    RowsChange s a s' := by
  refine .of_update (hrows.trans (claimRows_rows s claimUntil claimed)) hissued fun r hr hmem => ?_
  obtain ⟨h, hh, hid⟩ := List.mem_map.mp (of_decide_eq_true hmem)
  obtain ⟨hhr, ha, hopen, hdue, hfree⟩ := hclaimed h hh
  obtain rfl := eq_of_id hids hhr hr hid
  exact .claimed hp ha hopen hdue hfree

theorem unlocked_of_rowsFree {p : ScheduledMessage → Bool} {r : ScheduledMessage} (h : s.rowsFree p = true)
    (hr : r ∈ s.rows) (hp : p r = true) : s.unlocked (.leaf r.id) = true := by
  have hall := List.all_eq_true.mp h r hr
  simpa [hp] using hall

theorem carries_id {r h : ScheduledMessage} {claimToken : ℕ} (hc : r.carries h claimToken = true) :
    r.id = h.id ∧ r.status = .processing ∧ r.nextAttemptAt = claimToken := by
  simp only [ScheduledMessage.carries, Bool.and_eq_true, decide_eq_true_eq] at hc
  exact ⟨hc.1.1, hc.1.2, hc.2⟩

theorem rescheduleBulkJob_some {jobId scheduledAt : ℕ} {t : Tenant}
    (h : s.rescheduleBulkJob jobId scheduledAt = some t) :
    ∃ job, s.jobs jobId = some job ∧ job.status = .scheduled ∧
      (∀ r ∈ s.rows, r.leafOf jobId = true → r.status = .scheduled ∨ r.status = .skipped) ∧
      t = (s.updateRows (s.reschedules jobId) (·.rescheduled scheduledAt)).setJob jobId
        { job with scheduledAt := scheduledAt } := by
  unfold rescheduleBulkJob at h
  cases hjob : s.jobs jobId with
  | none =>
    rw [hjob] at h
    contradiction
  | some job =>
    rw [hjob] at h
    dsimp only at h
    split_ifs at h with hstatus hleaves hlen
    obtain rfl := Option.some.inj h
    refine ⟨job, rfl, not_not.mp hstatus, fun r hr hleaf => ?_, rfl⟩
    obtain ⟨-, hnone⟩ := not_or.mp hleaves
    have hr' := List.any_eq_false.mp (Bool.eq_false_iff.mpr hnone) r (List.mem_filter.mpr ⟨hr, hleaf⟩)
    simp only [decide_eq_true_eq] at hr'
    by_cases hs : r.status = .scheduled
    · exact .inl hs
    · exact .inr (not_not.mp fun hk => hr' ⟨hs, hk⟩)

theorem stepMove_of (hstep : scheduledStep cfg s a = some s') : StepMove cfg s a s' := by
  cases a with
  | tick duration => exact Option.some.inj hstep ▸ .tick duration
  | advance p duration => exact Option.some.inj hstep ▸ .advance p duration
  | crash p => exact Option.some.inj hstep ▸ .crash p
  | setContact id contact =>
    simp only [scheduledStep] at hstep
    split_ifs at hstep with h
    obtain rfl := Option.some.inj hstep
    exact .setContact h.1 h.2 (by cases contact <;> rfl)
  | setConnection id connection =>
    simp only [scheduledStep] at hstep
    split_ifs at hstep
    exact Option.some.inj hstep ▸ .setConnection id connection
  | schedule p id contactId scheduledAt =>
    simp only [scheduledStep] at hstep
    split_ifs at hstep with h
    exact Option.some.inj hstep ▸ .schedule h
  | createJob p jobId scheduledAt recipients =>
    simp only [scheduledStep] at hstep
    split_ifs at hstep with h
    exact Option.some.inj hstep ▸ .createJob h.1 h.2.1
  | reschedule jobId scheduledAt =>
    simp only [scheduledStep] at hstep
    split_ifs at hstep with h
    obtain rfl := Option.some.inj hstep
    cases hres : s.rescheduleBulkJob jobId scheduledAt with
    | none => exact .unchanged _
    | some t =>
      obtain ⟨job, hjob, -, -, rfl⟩ := rescheduleBulkJob_some hres
      exact .reschedule hjob h.1 h.2
  | capture | claimDue | beginClaim | cancelFind | cancelCount | purgeCount | purgeCommit =>
    simp only [scheduledStep] at hstep
    split at hstep
    · rename_i hp
      exact Option.some.inj hstep ▸ by constructor; exact hp
    · contradiction
  | claimBulk p connectionId skipped =>
    simp only [scheduledStep] at hstep
    split at hstep
    · rename_i hp
      split_ifs at hstep
      exact Option.some.inj hstep ▸ .claimBulk hp
    · contradiction
  | send p messageId =>
    simp only [scheduledStep] at hstep
    split at hstep
    · rename_i hp
      split_ifs at hstep with h hc
      · exact Option.some.inj hstep ▸ .send hp h.1 h.2 hc
      · exact Option.some.inj hstep ▸ .unchanged _
    · contradiction
  | cancelAutoReply p =>
    simp only [scheduledStep] at hstep
    split at hstep
    · rename_i hp
      split_ifs at hstep with h
      exact Option.some.inj hstep ▸ .cancelAutoReply hp h.1 h.2.2
    · contradiction
  | fail p error =>
    simp only [scheduledStep] at hstep
    split at hstep
    · rename_i h _ hp
      by_cases hfree : s.unlocked (.leaf h.id) = true
      swap
      · rw [if_neg hfree] at hstep
        contradiction
      rw [if_pos hfree] at hstep
      cases error with
      | bulkSkip reason =>
        dsimp only at hstep
        split_ifs at hstep
        exact Option.some.inj hstep ▸ .bulkSkip hp hfree
      | permanent => exact Option.some.inj hstep ▸ .fail true hp hfree
      | transient => exact Option.some.inj hstep ▸ .fail false hp hfree
    · contradiction
  | sweepRead p orphans skipped =>
    simp only [scheduledStep] at hstep
    split at hstep
    · rename_i hp
      obtain rfl := Option.some.inj hstep
      refine .sweepRead hp fun i hi => ?_
      obtain ⟨r, hr, hid⟩ := List.mem_map.mp hi
      exact ⟨r, List.mem_of_mem_filter (List.mem_of_mem_take hr), hid⟩
    · contradiction
  | sweepWrite p =>
    simp only [scheduledStep] at hstep
    split at hstep
    · rename_i hp
      split_ifs at hstep with h
      exact Option.some.inj hstep ▸ .sweepWrite hp h
    · contradiction
  | markRunning jobId =>
    simp only [scheduledStep] at hstep
    split at hstep
    · rename_i hjob
      split_ifs at hstep with h
      exact Option.some.inj hstep ▸ .markRunning hjob h.1 h.2
    · contradiction
  | finalizeRead p jobId =>
    simp only [scheduledStep] at hstep
    split at hstep
    · rename_i hp hjob
      split_ifs at hstep with h
      · exact Option.some.inj hstep ▸ .unchanged _
      · exact Option.some.inj hstep ▸ .finalizeRead hp hjob (Bool.eq_false_iff.mpr h)
    · contradiction
  | finalizeCount p =>
    simp only [scheduledStep] at hstep
    split at hstep
    · rename_i hp
      split_ifs at hstep with h
      · exact Option.some.inj hstep ▸ .ended p _ (.inl rfl) (.inl ⟨_, _, hp⟩)
      · exact Option.some.inj hstep ▸ .finalizeCount hp (by omega)
    · contradiction
  | finalizeWrite p =>
    simp only [scheduledStep] at hstep
    split at hstep
    · rename_i jobId status progress hp
      split at hstep
      · exact Option.some.inj hstep ▸ .ended p _ (.inr rfl) (.inr ⟨_, _, _, hp⟩)
      · rename_i job hjob
        by_cases hfree : s.unlocked (.job jobId) = true
        swap
        · rw [if_neg hfree] at hstep
          contradiction
        rw [if_pos hfree] at hstep
        by_cases hcanceled : status = .canceled
        · subst hcanceled
          rw [if_pos rfl] at hstep
          exact Option.some.inj hstep ▸ .stamped hp hjob
        · rw [if_neg hcanceled] at hstep
          split_ifs at hstep with hactive
          · exact Option.some.inj hstep ▸ .finalizeWrite hp hjob hfree hcanceled hactive
          · exact Option.some.inj hstep ▸ .ended p _ (.inr rfl) (.inr ⟨_, _, _, hp⟩)
    · contradiction
  | cancelBegin p jobId =>
    simp only [scheduledStep] at hstep
    split at hstep
    · rename_i hp hjob
      split_ifs at hstep with hfree hactive
      · exact Option.some.inj hstep ▸ .cancelBegin hp hjob hfree hactive
      · exact Option.some.inj hstep ▸ .unchanged _
    · contradiction
  | cancelWrite p =>
    simp only [scheduledStep] at hstep
    split at hstep
    · rename_i hp
      split_ifs at hstep with h
      exact Option.some.inj hstep ▸ .cancelWrite hp h rfl
    · contradiction
  | cancelCommit p =>
    simp only [scheduledStep] at hstep
    split at hstep
    · rename_i hp
      split at hstep
      · contradiction
      · rename_i hjob
        exact Option.some.inj hstep ▸ .cancelCommit hp hjob
    · contradiction
  | purgeLock p connectionId =>
    simp only [scheduledStep] at hstep
    split at hstep
    · rename_i hp _
      split_ifs at hstep with h
      exact Option.some.inj hstep ▸ .purgeLock hp h.2.1 h.2.2
    · contradiction
  | purgeDelete p =>
    simp only [scheduledStep] at hstep
    split at hstep
    · rename_i hp
      split_ifs at hstep with h
      exact Option.some.inj hstep ▸ .purgeDelete hp h.1 h.2 rfl
    · contradiction

theorem rows_step (hids : (s.rows.map (·.id)).Nodup) (hstep : scheduledStep cfg s a = some s') :
    RowsChange s a s' := by
  cases stepMove_of hstep with
  | schedule hfresh =>
    simp only [freshIds, Bool.and_eq_true, decide_eq_true_eq, List.all_eq_true] at hfresh
    refine .created _ rfl rfl (List.nodup_singleton _) (fun r hr => ?_) (.inl ⟨_, _, _, _, rfl, rfl⟩)
    obtain rfl := List.mem_singleton.mp hr
    exact hfresh.2 _ (List.mem_singleton_self _)
  | @createJob p jobId scheduledAt recipients hjob hnew =>
    simp only [freshIds, Bool.and_eq_true, decide_eq_true_eq, List.all_eq_true] at hnew
    have hmap : (newLeaves jobId scheduledAt (s.clock p) recipients).map (·.id) = recipients.map (·.leafId) := by
      unfold newLeaves
      rw [List.map_map]
      rfl
    refine .created _ rfl rfl (by rw [hmap]; exact hnew.1) (fun r hr => ?_)
      (.inr ⟨p, jobId, scheduledAt, recipients, rfl, hjob, rfl⟩)
    have hr' : r.id ∈ recipients.map (·.leafId) := hmap ▸ List.mem_map_of_mem hr
    exact hnew.2 _ hr'
  | @claimDue p now claimUntil skipped hp =>
    refine .claim hids skipped _ hp (fun h hh => ?_) rfl rfl
    obtain ⟨hmem, hjob, hrest⟩ := mem_dueRows hh
    exact ⟨hmem, .inl ⟨rfl, hjob⟩, hrest⟩
  | @claimBulk p connectionId now claimUntil date skipped hp =>
    rcases claimBulkLeafForConnection_cases cfg s connectionId now claimUntil date skipped with
      heq | heq | ⟨leaf, sentToday, hleaf, -, -, -, -, heq⟩
    · rw [heq]
      exact .of_eq rfl rfl
    · rw [heq]
      exact .of_eq rfl rfl
    · rw [heq]
      refine .claim hids skipped [leaf] hp (fun h hh => ?_) rfl rfl
      obtain rfl := List.mem_singleton.mp hh
      obtain ⟨hmem, hjob, hrest⟩ := mem_dueLeaf hleaf
      exact ⟨hmem, .inr ⟨connectionId, rfl, hjob⟩, hrest⟩
  | send hp hreach hfree =>
    exact .of_update rfl rfl fun r hr hc => .sent rfl hp hc ((carries_id hc).1 ▸ hfree) hreach
  | cancelAutoReply hp hjob hfree =>
    exact .of_update rfl rfl fun r hr hc => .autoCanceled rfl hp hc ((carries_id hc).1 ▸ hfree) hjob
  | bulkSkip hp hfree =>
    exact .of_update rfl rfl fun r hr hc => .skipped rfl hp hc ((carries_id hc).1 ▸ hfree)
  | fail permanent hp hfree =>
    exact .of_update rfl rfl fun r hr hc => .failed rfl hp hc ((carries_id hc).1 ▸ hfree)
  | sweepWrite hp hfree =>
    exact .of_update rfl rfl fun r hr hmem =>
      .swept rfl hp (Bool.and_eq_true_iff.mp hmem).2 (unlocked_of_rowsFree hfree hr hmem)
  | @reschedule jobId scheduledAt job hjob hfree hrows =>
    refine .of_update (p := s.reschedules jobId) (g := (·.rescheduled scheduledAt)) rfl rfl fun r hr hmem => ?_
    simp only [reschedules, Bool.and_eq_true, decide_eq_true_eq] at hmem
    obtain ⟨t, ht, hid⟩ := List.mem_map.mp hmem.1
    obtain ⟨ht, hleaf⟩ := List.mem_filter.mp ht
    obtain rfl := eq_of_id hids ht hr hid
    exact .rescheduled rfl hleaf hmem.2 (unlocked_of_rowsFree hrows hr hleaf)
  | cancelCommit hp => exact .of_update rfl rfl fun r hr hmem => .canceled rfl hp (of_decide_eq_true hmem)
  | purgeCommit hp => exact .purged rfl hp rfl rfl
  | _ => exact .of_eq rfl rfl

theorem RowsChange.of_mem (h : RowsChange s a s') {r' : ScheduledMessage} (hr : r' ∈ s'.rows) :
    (∃ r ∈ s.rows, RowMove s a r r') ∨ (r'.id ∉ s.issued ∧ NewRow s a r') := by
  cases h with
  | moved f hrows _ hmove =>
    rw [hrows] at hr
    obtain ⟨r, hold, rfl⟩ := List.mem_map.mp hr
    exact .inl ⟨r, hold, hmove r hold⟩
  | created new hrows _ _ hfresh hnew =>
    rw [hrows] at hr
    rcases List.mem_append.mp hr with hold | hr
    · exact .inl ⟨r', hold, .same⟩
    · refine .inr ⟨hfresh r' hr, ?_⟩
      rcases hnew with ⟨p, id, contactId, scheduledAt, ha, rfl⟩ | ⟨p, jobId, scheduledAt, recipients, ha, hjob, rfl⟩
      · obtain rfl := List.mem_singleton.mp hr
        exact .message ha
      · obtain ⟨recipient, hmem, rfl⟩ := List.mem_map.mp hr
        exact .leaf ha hjob hmem
  | purged _ _ hrows _ =>
    rw [hrows] at hr
    exact .inl ⟨r', List.mem_of_mem_filter hr, .same⟩

theorem RowsChange.of_old (h : RowsChange s a s') {r : ScheduledMessage} (hr : r ∈ s.rows) :
    (∃ r' ∈ s'.rows, RowMove s a r r') ∨ ∃ p connectionId contactRows counted ids,
      a = .purgeCommit p ∧ s.processes p = .purgeDeleted connectionId contactRows counted ids ∧ r.id ∈ ids := by
  cases h with
  | moved f hrows _ hmove =>
    refine .inl ⟨f r, ?_, hmove r hr⟩
    rw [hrows]
    exact List.mem_map_of_mem hr
  | created new hrows _ _ _ _ =>
    refine .inl ⟨r, ?_, .same⟩
    rw [hrows]
    exact List.mem_append_left _ hr
  | purged ha hp hrows _ =>
    rename_i p connectionId contactRows ids counted _
    by_cases hmem : r.id ∈ ids
    · exact .inr ⟨p, connectionId, contactRows, counted, ids, ha, hp, hmem⟩
    · refine .inl ⟨r, ?_, .same⟩
      rw [hrows]
      exact List.mem_filter.mpr ⟨hr, by simp [hmem]⟩

theorem RowsChange.issued_mono (h : RowsChange s a s') {i : ℕ} (hi : i ∈ s.issued) : i ∈ s'.issued := by
  cases h with
  | moved _ _ hissued _ => exact hissued ▸ hi
  | created _ _ hissued _ _ _ =>
    rw [hissued]
    exact List.mem_append_right _ hi
  | purged _ _ _ hissued => exact hissued ▸ hi

/-! ### Jobs -/

def JobsChange (s : Tenant) (a : ScheduledAction) (s' : Tenant) : Prop :=
  ∀ j, (∃ p scheduledAt recipients, a = .createJob p j scheduledAt recipients ∧ s.jobs j = none ∧
      s'.jobs j = some (newJob scheduledAt recipients)) ∨ s'.jobs j = s.jobs j ∨
    ∃ job job', s.jobs j = some job ∧ s'.jobs j = some job' ∧ JobMove s a j job job'

theorem JobsChange.of_eq (h : s'.jobs = s.jobs) : JobsChange s a s' := fun j => .inr (.inl (by rw [h]))

theorem JobsChange.of_set {j : ℕ} {job job' : BulkJob} (hjob : s.jobs j = some job)
    (h : s'.jobs = Function.update s.jobs j (some job')) (hmove : JobMove s a j job job') : JobsChange s a s' := by
  intro i
  by_cases hi : i = j
  · subst hi
    exact .inr (.inr ⟨job, job', hjob, by rw [h, Function.update_self], hmove⟩)
  · exact .inr (.inl (by rw [h, Function.update_of_ne hi]))

theorem jobs_step (hstep : scheduledStep cfg s a = some s') : JobsChange s a s' := by
  cases stepMove_of hstep with
  | @createJob p jobId scheduledAt recipients hjob hnew =>
    intro j
    by_cases hj : j = jobId
    · subst hj
      exact .inl ⟨p, scheduledAt, recipients, rfl, hjob, Function.update_self _ _ _⟩
    · exact .inr (.inl (Function.update_of_ne hj _ _))
  | @claimBulk p connectionId now claimUntil date skipped hp =>
    rcases claimBulkLeafForConnection_cases cfg s connectionId now claimUntil date skipped with
      heq | heq | ⟨leaf, sentToday, -, -, -, -, -, heq⟩
    all_goals
      rw [heq]
      exact .of_eq rfl
  | markRunning hjob hfree hstatus => exact .of_set hjob rfl (.running hfree hstatus)
  | stamped hp hjob => exact .of_set hjob rfl (.stamped hp)
  | finalizeWrite hp hjob hfree hstatus hactive => exact .of_set hjob rfl (.finished rfl hp hfree hstatus hactive)
  | reschedule hjob hfree => exact .of_set hjob rfl (.rescheduled hfree)
  | cancelCommit hp hjob => exact .of_set hjob rfl (.canceled rfl hp)
  | @purgeCommit p connectionId contactRows ids counted hp =>
    intro j
    cases hjob : s.jobs j with
    | none => exact .inr (.inl (by show (s.jobs j).map _ = none; rw [hjob]; rfl))
    | some job =>
      refine .inr (.inr ⟨job, purgeJob counted j job, rfl, ?_, .purged rfl hp⟩)
      show (s.jobs j).map _ = _
      rw [hjob]
      rfl
  | _ => exact .of_eq rfl

/-! ### Processes -/

def ProcessesChange (s : Tenant) (a : ScheduledAction) (s' : Tenant) : Prop :=
  ∀ q, s'.processes q = s.processes q ∨ ProcessMove s a s' q (s.processes q) (s'.processes q)

theorem ProcessesChange.of_eq (h : s'.processes = s.processes) : ProcessesChange s a s' :=
  fun q => .inl (by rw [h])

theorem ProcessesChange.of_set {p : ℕ} {x y : Process} (hp : s.processes p = x)
    (h : s'.processes = Function.update s.processes p y) (hmove : ProcessMove s a s' p x y) :
    ProcessesChange s a s' := by
  intro q
  by_cases hq : q = p
  · subst hq
    right
    rw [h, Function.update_self, hp]
    exact hmove
  · exact .inl (by rw [h, Function.update_of_ne hq])

theorem processes_step (hstep : scheduledStep cfg s a = some s') : ProcessesChange s a s' := by
  cases stepMove_of hstep with
  | crash p => exact .of_set rfl rfl (.ended _)
  | capture delay hp => exact .of_set hp rfl (.captured delay (Function.update_self _ _ _))
  | claimDue hp => exact .of_set hp rfl (.claimed (fun h hh => (mem_dueRows hh).1) rfl)
  | beginClaim hp => exact .of_set hp rfl .began
  | @claimBulk p connectionId now claimUntil date skipped hp =>
    rcases claimBulkLeafForConnection_cases cfg s connectionId now claimUntil date skipped with
      heq | heq | ⟨leaf, sentToday, hleaf, -, -, -, -, heq⟩
    · rw [heq]
      refine .of_set hp rfl (.claimed (fun h hh => absurd hh List.not_mem_nil) ?_)
      exact (claimRows_nil s claimUntil).symm
    · rw [heq]
      refine .of_set hp rfl (.claimed (fun h hh => absurd hh List.not_mem_nil) ?_)
      exact (claimRows_nil s claimUntil).symm
    · rw [heq]
      refine .of_set hp rfl (.claimed (fun h hh => ?_) rfl)
      obtain rfl := List.mem_singleton.mp hh
      exact (mem_dueLeaf hleaf).1
  | send hp => exact .of_set hp rfl .settled
  | cancelAutoReply hp => exact .of_set hp rfl .settled
  | bulkSkip hp => exact .of_set hp rfl .settled
  | fail permanent hp => exact .of_set hp rfl .settled
  | sweepRead hp hids => exact .of_set hp rfl (.sweeping hids)
  | sweepWrite hp => exact .of_set hp rfl .swept
  | finalizeRead hp hjob hopen => exact .of_set hp rfl (.finalizing rfl hjob hopen)
  | ended => exact .of_set rfl rfl (.ended _)
  | finalizeCount hp hdone => exact .of_set hp rfl (.drained rfl hdone)
  | stamped => exact .of_set rfl rfl (.ended _)
  | finalizeWrite => exact .of_set rfl rfl (.ended _)
  | cancelBegin hp hjob hfree hactive => exact .of_set hp rfl (.canceling rfl hjob hactive hfree)
  | cancelFind hp => exact .of_set hp rfl (.cancelFound rfl)
  | cancelWrite hp hfree hwritten =>
    subst hwritten
    exact .of_set hp rfl (.cancelWritten rfl)
  | cancelCount hp => exact .of_set hp rfl (.cancelCounted rfl)
  | cancelCommit => exact .of_set rfl rfl (.ended _)
  | purgeLock hp => exact .of_set hp rfl .purging
  | purgeCount hp => exact .of_set hp rfl (.purgeCounted rfl)
  | purgeDelete hp hjobs hrows hids =>
    subst hids
    exact .of_set hp rfl (.purgeDeleted rfl)
  | purgeCommit => exact .of_set rfl rfl (.ended _)
  | _ => exact .of_eq rfl

/-! ### The clocks, the log and the ledger -/

/-- Messages and commands are committed by a send, together. -/
inductive LogChange (s : Tenant) (a : ScheduledAction) (s' : Tenant) : Prop
  | same (hmessages : s'.messages = s.messages) (hcommands : s'.commands = s.commands)
      (ha : (∃ p messageId, a = .send p messageId) → s' = s)
  | sent {p now claimUntil messageId : ℕ} {h : ScheduledMessage} {held : List ScheduledMessage}
      (ha : a = .send p messageId) (hp : s.processes p = .dispatching now claimUntil none (h :: held))
      (hc : ∃ r ∈ s.rows, r.carries h claimUntil = true)
      (hrows : s'.rows = s.rows.map fun r => if r.carries h claimUntil then r.dispatched h messageId else r)
      (hmessages : s'.messages = (h.id, messageId) :: s.messages)
      (hcommands : s'.commands = h.id :: s.commands)

inductive LedgerChange (cfg : BulkConfig) (s : Tenant) (a : ScheduledAction) (s' : Tenant) : Prop
  | same (hbudgets : s'.budgets = s.budgets) (hclaims : s'.claims = s.claims)
  | seeded {p now claimUntil date connectionId : ℕ} {skipped : List ℕ} (ha : a = .claimBulk p connectionId skipped)
      (hp : s.processes p = .dispatching now claimUntil (some date) [])
      (hbudgets : s'.budgets =
        Function.update s.budgets connectionId (some (s.budgetFor connectionId now date)))
      (hclaims : s'.claims = s.claims)
  | charged {p now claimUntil date connectionId sentToday : ℕ} {skipped : List ℕ}
      (ha : a = .claimBulk p connectionId skipped)
      (hp : s.processes p = .dispatching now claimUntil (some date) [])
      (hsent : sentToday = if (s.budgetFor connectionId now date).quotaDate = date
        then (s.budgetFor connectionId now date).sentToday else 0)
      (hcap : sentToday < cfg.dailyCapPerConnection)
      (hnext : (s.budgetFor connectionId now date).nextEligibleAt ≤ now)
      (hsends : s.sendsOn connectionId = true) (hleaf : (s.dueLeaf connectionId now skipped).isSome = true)
      (hbudgets : s'.budgets =
        Function.update s.budgets connectionId (some ⟨now + cfg.sendIntervalMs, date, sentToday + 1⟩))
      (hclaims : s'.claims = ⟨connectionId, now, date⟩ :: s.claims)
  | purged {p connectionId : ℕ} (ha : a = .purgeCommit p)
      (hbudgets : s'.budgets = Function.update s.budgets connectionId none) (hclaims : s'.claims = s.claims)

structure RestChange (cfg : BulkConfig) (s : Tenant) (a : ScheduledAction) (s' : Tenant) : Prop where
  clock : ∀ p, s.clock p ≤ s'.clock p
  log : LogChange s a s'
  ledger : LedgerChange cfg s a s'

def ScheduledAction.isSend : ScheduledAction → Bool
  | .send _ _ => true
  | _ => false

theorem not_send {P : Prop} (h : a.isSend = false) : (∃ p messageId, a = .send p messageId) → P := by
  rintro ⟨p, messageId, rfl⟩
  cases h

theorem RestChange.of_eq (hclock : s'.clock = s.clock) (hmessages : s'.messages = s.messages)
    (hcommands : s'.commands = s.commands) (hbudgets : s'.budgets = s.budgets) (hclaims : s'.claims = s.claims)
    (ha : (∃ p messageId, a = .send p messageId) → s' = s) : RestChange cfg s a s' :=
  ⟨fun p => by rw [hclock], .same hmessages hcommands ha, .same hbudgets hclaims⟩

theorem clock_forward (p duration : ℕ) (q : ℕ) : s.clock q ≤ Function.update s.clock p (s.clock p + duration) q := by
  by_cases hq : q = p
  · subst hq
    rw [Function.update_self]
    exact Nat.le_add_right _ _
  · rw [Function.update_of_ne hq]

theorem rest_step (hstep : scheduledStep cfg s a = some s') : RestChange cfg s a s' := by
  cases stepMove_of hstep with
  | unchanged => exact .of_eq rfl rfl rfl rfl rfl fun _ => rfl
  | advance p duration => exact ⟨clock_forward p duration, .same rfl rfl (not_send rfl), .same rfl rfl⟩
  | @capture p delay => exact ⟨clock_forward p delay, .same rfl rfl (not_send rfl), .same rfl rfl⟩
  | send hp hreach hfree hc =>
    exact ⟨fun q => le_refl _, .sent rfl hp (List.any_eq_true.mp hc) rfl rfl rfl, .same rfl rfl⟩
  | @claimBulk p connectionId now claimUntil date skipped hp =>
    rcases claimBulkLeafForConnection_cases cfg s connectionId now claimUntil date skipped with
      heq | heq | ⟨leaf, sentToday, hleaf, hsent, hcap, hnext, hsends, heq⟩
    · rw [heq]
      exact .of_eq rfl rfl rfl rfl rfl (not_send rfl)
    · rw [heq]
      exact ⟨fun q => le_refl _, .same rfl rfl (not_send rfl), .seeded rfl hp rfl rfl⟩
    · rw [heq]
      exact ⟨fun q => le_refl _, .same rfl rfl (not_send rfl), .charged rfl hp hsent hcap hnext hsends (by rw [hleaf]; rfl) rfl
        rfl⟩
  | ended p a ha => exact .of_eq rfl rfl rfl rfl rfl (by rcases ha with rfl | rfl <;> exact not_send rfl)
  | purgeCommit => exact ⟨fun q => le_refl _, .same rfl rfl (not_send rfl), .purged rfl rfl rfl⟩
  | _ => exact .of_eq rfl rfl rfl rfl rfl (not_send rfl)

end Inversion

end TeamInbox.Broadcast
