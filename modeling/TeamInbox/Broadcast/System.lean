import TeamInbox.Lib.Run
import TeamInbox.Broadcast.Records
import Mathlib.Data.List.Sort

/-!
# TeamInbox.Broadcast.System — dispatch, cancellation and purge of broadcasts

Calls of any number of replicas are numbered processes over the tables of one tenant.  A step is a statement,
or a transaction that holds the locks of what it writes until it commits; the transactions with several
statements others can fall between (`cancelBulkJob`, `purgeArchivedConnection`, the two reads and the write of
`finalizeBulkJobIfComplete`, the snapshot and the write of a sweep) take a step for each.  What an open
transaction has written is kept in its process and reaches the tables at its commit; until then the rows are
locked, and a step that needs a locked row is not enabled (it waits).

Every replica has a clock of its own; `now` is the database's.  A call that ends or crashes is `crash`.  What
a dispatch runs into before it writes (an inactive connection, a missing object, an ineligible recipient) is
left open, and so is which rows others hold locked when a claim skips them.
-/

namespace TeamInbox.Broadcast

open Lib

structure Contact where
  connectionId : Option ℕ
  deriving DecidableEq

/-- A row of `whatsapp_connections`. -/
structure Connection where
  connected : Bool
  archived : Bool
  deriving DecidableEq

inductive Lock
  | job (id : ℕ)
  | leaf (id : ℕ)
  | contact (id : ℕ)
  | connection (id : ℕ)
  deriving DecidableEq

inductive DispatchError
  | bulkSkip (reason : BulkRecipientSkipReason)
  | permanent
  | transient
  deriving DecidableEq

/-- A recipient of a new broadcast, with the id of its leaf. -/
structure Recipient where
  leafId : ℕ
  contactId : ℕ
  skipReason : Option BulkRecipientSkipReason
  deriving DecidableEq

inductive OrphanFilter
  | missing
  | unlinked
  deriving DecidableEq

def OrphanFilter.reason : OrphanFilter → BulkRecipientSkipReason
  | .missing => .contactMissing
  | .unlinked => .noConnection

inductive Process
  | idle
  /-- a dispatch call, with the times it captured, the date of its open claim transaction and the rows it has
  claimed and not settled, as they were before the claim -/
  | dispatching (now claimUntil : ℕ) (began : Option ℕ) (held : List ScheduledMessage)
  /-- `sweepOrphanedBulkLeaves` has found orphans -/
  | sweeping (now claimUntil : ℕ) (reason : BulkRecipientSkipReason) (ids : List ℕ)
  /-- `finalizeBulkJobIfComplete` has read the job -/
  | finalizing (jobId : ℕ) (status : BulkJobStatus)
  | drained (jobId : ℕ) (status : BulkJobStatus) (progress : BulkJobProgress)
  /-- `cancelBulkJob` has moved the job -/
  | canceling (jobId now : ℕ)
  /-- its second statement has found the leaves -/
  | cancelFound (jobId now : ℕ) (ids : List ℕ)
  | cancelWritten (jobId now : ℕ) (ids : List ℕ)
  | cancelCounted (jobId now : ℕ) (ids : List ℕ) (stillProcessing : ℕ)
  /-- `purgeArchivedConnection` holds the connection and its contacts -/
  | purging (connectionId : ℕ) (contactRows : List ℕ)
  /-- `bulkProgressRows`, kept as the leaves that were counted -/
  | purgeCounted (connectionId : ℕ) (contactRows : List ℕ) (counted : List ScheduledMessage)
  /-- the counters are raised and the rows deleted -/
  | purgeDeleted (connectionId : ℕ) (contactRows : List ℕ) (counted : List ScheduledMessage) (ids : List ℕ)
  deriving DecidableEq

/-- A successful claim of a leaf, for the record. -/
structure BulkClaim where
  connectionId : ℕ
  now : ℕ
  began : ℕ
  deriving DecidableEq

structure Tenant where
  now : ℕ
  clock : ℕ → ℕ
  contacts : Table ℕ Contact
  connections : ℕ → Option Connection
  rows : List ScheduledMessage
  /-- identifiers of all rows there have been -/
  issued : List ℕ
  jobs : ℕ → Option BulkJob
  budgets : ℕ → Option Budget
  /-- messages committed for scheduled rows: the row and the message -/
  messages : List (ℕ × ℕ)
  /-- send commands committed for scheduled rows -/
  commands : List ℕ
  processes : ℕ → Process
  locks : List (Lock × ℕ)
  claims : List BulkClaim

inductive ScheduledAction
  | tick (duration : ℕ)
  | advance (p duration : ℕ)
  | setContact (id : ℕ) (contact : Option Contact)
  | setConnection (id : ℕ) (connection : Option Connection)
  | schedule (p id : ℕ) (contactId : Option ℕ) (scheduledAt : ℕ)
  | createJob (p jobId scheduledAt : ℕ) (recipients : List Recipient)
  | capture (p delay : ℕ)
  | claimDue (p : ℕ) (skipped : List ℕ)
  | beginClaim (p : ℕ)
  | claimBulk (p connectionId : ℕ) (skipped : List ℕ)
  | send (p messageId : ℕ)
  | cancelAutoReply (p : ℕ)
  | fail (p : ℕ) (error : DispatchError)
  | sweepRead (p : ℕ) (orphans : OrphanFilter) (skipped : List ℕ)
  | sweepWrite (p : ℕ)
  | markRunning (jobId : ℕ)
  | finalizeRead (p jobId : ℕ)
  | finalizeCount (p : ℕ)
  | finalizeWrite (p : ℕ)
  | reschedule (jobId scheduledAt : ℕ)
  | cancelBegin (p jobId : ℕ)
  | cancelFind (p : ℕ)
  | cancelWrite (p : ℕ)
  | cancelCount (p : ℕ)
  | cancelCommit (p : ℕ)
  | purgeLock (p connectionId : ℕ)
  | purgeCount (p : ℕ)
  | purgeDelete (p : ℕ)
  | purgeCommit (p : ℕ)
  | crash (p : ℕ)
  deriving DecidableEq

/-- `CURRENT_DATE`, in days. -/
def currentDate (now : ℕ) : ℕ := now / 86400000

namespace Tenant

def setProcess (s : Tenant) (p : ℕ) (x : Process) : Tenant :=
  { s with processes := Function.update s.processes p x }

def setJob (s : Tenant) (jobId : ℕ) (job : BulkJob) : Tenant :=
  { s with jobs := Function.update s.jobs jobId (some job) }

def setBudget (s : Tenant) (connectionId : ℕ) (budget : Option Budget) : Tenant :=
  { s with budgets := Function.update s.budgets connectionId budget }

/-- `UPDATE scheduled_messages SET … WHERE …`. -/
def updateRows (s : Tenant) (p : ScheduledMessage → Bool) (g : ScheduledMessage → ScheduledMessage) : Tenant :=
  { s with rows := s.rows.map fun r => if p r then g r else r }

def unlocked (s : Tenant) (l : Lock) : Bool := s.locks.all fun k => !decide (k.1 = l)

def lock (s : Tenant) (p : ℕ) (ls : List Lock) : Tenant := { s with locks := ls.map (·, p) ++ s.locks }

def release (s : Tenant) (p : ℕ) : Tenant := { s with locks := s.locks.filter fun k => !decide (k.2 = p) }

/-- No statement that writes these rows has to wait. -/
def rowsFree (s : Tenant) (p : ScheduledMessage → Bool) : Bool :=
  s.rows.all fun r => !p r || s.unlocked (.leaf r.id)

def routed (s : Tenant) (connectionId : ℕ) (r : ScheduledMessage) : Bool :=
  r.contactId.any fun c => (s.contacts.find? c).any fun contact => decide (contact.connectionId = some connectionId)

def contactsOf (s : Tenant) (connectionId : ℕ) : List ℕ :=
  (s.contacts.entries.filter fun e => decide (e.2.connectionId = some connectionId)).map (·.1)

/-- The send transaction can lock the contact of the row. -/
def reachable (s : Tenant) (r : ScheduledMessage) : Bool :=
  r.contactId.all fun c => (s.contacts.find? c).isSome && s.unlocked (.contact c)

/-- A foreign key holds the connection a row refers to. -/
def admitsLink (s : Tenant) (connectionId : Option ℕ) : Bool :=
  connectionId.all fun c => (s.connections c).isSome && s.unlocked (.connection c)

/-! ### Claims -/

/-- What `SKIP LOCKED` leaves of the rows. -/
def notSkipped (s : Tenant) (skipped : List ℕ) (r : ScheduledMessage) : Bool :=
  decide (r.id ∉ skipped) && s.unlocked (.leaf r.id)

/-- The claim of `dispatchCompanyScheduledMessages`. -/
def dueRows (s : Tenant) (now : ℕ) (skipped : List ℕ) : List ScheduledMessage :=
  (((s.rows.filter fun r => r.bulkJobId.isNone && r.status.isOpen && decide (r.nextAttemptAt ≤ now)).insertionSort
    fun r t => r.scheduledAt ≤ t.scheduledAt).filter (s.notSkipped skipped)).take batchSize

/-- The leaf `claimBulkLeafForConnection` takes. -/
def dueLeaf (s : Tenant) (connectionId now : ℕ) (skipped : List ℕ) : Option ScheduledMessage :=
  (((s.rows.filter fun r => r.bulkJobId.isSome && r.status.isOpen && decide (r.nextAttemptAt ≤ now) &&
      s.routed connectionId r).insertionSort fun r t =>
    r.scheduledAt < t.scheduledAt ∨ (r.scheduledAt = t.scheduledAt ∧ r.createdAt ≤ t.createdAt)).filter
      (s.notSkipped skipped)).head?

def claimRows (s : Tenant) (claimUntil : ℕ) (claimed : List ScheduledMessage) : Tenant :=
  s.updateRows (fun r => decide (r.id ∈ claimed.map (·.id))) (·.claimedUntil claimUntil)

/-- The ledger of the connection, seeded eligible at once. -/
def budgetFor (s : Tenant) (connectionId now date : ℕ) : Budget := (s.budgets connectionId).getD ⟨now, date, 0⟩

/-- `claimBulkLeafForConnection`; `date` is the `CURRENT_DATE` of its transaction. -/
def claimBulkLeafForConnection (cfg : BulkConfig) (s : Tenant) (connectionId now claimUntil date : ℕ)
    (skipped : List ℕ) : Tenant × Option ScheduledMessage :=
  match s.connections connectionId with
  -- the seed has no connection to refer to
  | none => (s, none)
  | some connection =>
    let budget := s.budgetFor connectionId now date
    let seeded := s.setBudget connectionId (some budget)
    let sentToday := if budget.quotaDate = date then budget.sentToday else 0
    if cfg.dailyCapPerConnection ≤ sentToday ∨ now < budget.nextEligibleAt then (seeded, none)
    else if connection.connected = false ∨ connection.archived = true then (seeded, none)
    else
      match s.dueLeaf connectionId now skipped with
      | none => (seeded, none)
      | some leaf =>
        ({ (s.claimRows claimUntil [leaf]).setBudget connectionId
            (some ⟨now + cfg.sendIntervalMs, date, sentToday + 1⟩) with
          claims := ⟨connectionId, now, date⟩ :: s.claims }, some leaf)

/-! ### Broadcasts -/

def newJob (scheduledAt : ℕ) (recipients : List Recipient) : BulkJob where
  status := .scheduled
  scheduledAt := scheduledAt
  totalRecipients := recipients.countP (·.skipReason.isNone)
  skippedRecipients := recipients.countP (·.skipReason.isSome)
  purgedSent := 0
  purgedFailed := 0
  purgedCanceled := 0
  purgedSkipped := 0
  canceledAt := none
  completedAt := none

def newLeaves (jobId scheduledAt createdAt : ℕ) (recipients : List Recipient) : List ScheduledMessage :=
  recipients.map fun r => .fresh r.leafId (some r.contactId) (some jobId) scheduledAt createdAt r.skipReason

def freshIds (s : Tenant) (ids : List ℕ) : Bool := decide ids.Nodup && ids.all fun id => decide (id ∉ s.issued)

def insertRows (s : Tenant) (rows : List ScheduledMessage) : Tenant :=
  { s with
    rows := s.rows ++ rows
    issued := rows.map (·.id) ++ s.issued }

/-- The leaves whose times `rescheduleBulkJob` moves: those it has locked, by id and status. -/
def reschedules (s : Tenant) (jobId : ℕ) (r : ScheduledMessage) : Bool :=
  decide (r.id ∈ (s.rows.filter (·.leafOf jobId)).map (·.id)) &&
    decide (r.status = .scheduled ∨ r.status = .skipped)

/-- `rescheduleBulkJob`; `none` is the rolled back transaction. -/
def rescheduleBulkJob (s : Tenant) (jobId scheduledAt : ℕ) : Option Tenant :=
  match s.jobs jobId with
  | none => none
  | some job =>
    let leafStates := s.rows.filter (·.leafOf jobId)
    if job.status ≠ .scheduled then none
    else if leafStates = [] ∨ leafStates.any fun r => decide (r.status ≠ .scheduled ∧ r.status ≠ .skipped) then none
    else if (s.rows.filter (s.reschedules jobId)).length ≠ leafStates.length then none
    else some ((s.updateRows (s.reschedules jobId) (·.rescheduled scheduledAt)).setJob jobId
      { job with scheduledAt := scheduledAt })

/-- The counters a purge raises, from the leaves it counted. -/
def purgeJob (counted : List ScheduledMessage) (jobId : ℕ) (job : BulkJob) : BulkJob :=
  let count := fun p : ScheduledMessageStatus → Bool => counted.countP fun r => r.leafOf jobId && p r.status
  { job with
    purgedSent := job.purgedSent + count (· == .sent)
    purgedFailed := job.purgedFailed + count (· == .failed)
    purgedCanceled := job.purgedCanceled + count (· == .canceled)
    purgedSkipped := job.purgedSkipped + count fun st => st != .sent && st != .failed && st != .canceled }

end Tenant

open Tenant

def scheduledStep (cfg : BulkConfig) (s : Tenant) : ScheduledAction → Option Tenant
  | .tick duration => some { s with now := s.now + duration }
  | .advance p duration => some { s with clock := Function.update s.clock p (s.clock p + duration) }
  | .setContact id contact =>
    if s.unlocked (.contact id) ∧ s.admitsLink (contact.bind (·.connectionId)) then
      some { s with contacts := match contact with
        | some c => s.contacts.put id c
        | none => s.contacts.erase id }
    else none
  | .setConnection id connection =>
    if s.unlocked (.connection id) then
      some { s with connections := Function.update s.connections id connection }
    else none
  | .schedule p id contactId scheduledAt =>
    if s.freshIds [id] then
      some (s.insertRows [.fresh id contactId none scheduledAt (s.clock p) none])
    else none
  | .createJob p jobId scheduledAt recipients =>
    if s.jobs jobId = none ∧ s.freshIds (recipients.map (·.leafId)) ∧ recipients.any (·.skipReason.isNone) then
      some ((s.insertRows (newLeaves jobId scheduledAt (s.clock p) recipients)).setJob jobId
        (newJob scheduledAt recipients))
    else none
  | .capture p delay =>
    match s.processes p with
    | .idle =>
      -- `Date.now()` is read a second time for the lease
      some ({ s with clock := Function.update s.clock p (s.clock p + delay) }.setProcess p
        (.dispatching (s.clock p) (s.clock p + delay + claimLeaseMs) none []))
    | _ => none
  | .claimDue p skipped =>
    match s.processes p with
    | .dispatching now claimUntil none [] =>
      let claimed := s.dueRows now skipped
      some ((s.claimRows claimUntil claimed).setProcess p (.dispatching now claimUntil none claimed))
    | _ => none
  | .beginClaim p =>
    match s.processes p with
    | .dispatching now claimUntil none [] =>
      some (s.setProcess p (.dispatching now claimUntil (some (currentDate s.now)) []))
    | _ => none
  | .claimBulk p connectionId skipped =>
    match s.processes p with
    | .dispatching now claimUntil (some date) [] =>
      if (s.budgets connectionId).isSome ∨ s.unlocked (.connection connectionId) then
        let result := s.claimBulkLeafForConnection cfg connectionId now claimUntil date skipped
        some (result.1.setProcess p (.dispatching now claimUntil none result.2.toList))
      else none
    | _ => none
  | .send p messageId =>
    match s.processes p with
    | .dispatching now claimUntil none (h :: held) =>
      if s.reachable h ∧ s.unlocked (.leaf h.id) then
        if s.rows.any (·.carries h claimUntil) then
          some ({ s.updateRows (·.carries h claimUntil) (·.dispatched h messageId) with
            messages := (h.id, messageId) :: s.messages
            commands := h.id :: s.commands }.setProcess p (.dispatching now claimUntil none held))
        else
          -- the row left `processing`: the message and the command are rolled back
          some s
      else none
    | _ => none
  | .cancelAutoReply p =>
    match s.processes p with
    | .dispatching now claimUntil none (h :: held) =>
      if h.bulkJobId = none ∧ s.reachable h ∧ s.unlocked (.leaf h.id) then
        some ((s.updateRows (·.carries h claimUntil) (·.canceled)).setProcess p
          (.dispatching now claimUntil none held))
      else none
    | _ => none
  | .fail p error =>
    match s.processes p with
    | .dispatching now claimUntil none (h :: held) =>
      if s.unlocked (.leaf h.id) then
        match error with
        | .bulkSkip reason =>
          if h.bulkJobId.isSome then
            some ((s.updateRows (·.carries h claimUntil) (·.bulkSkipped h reason)).setProcess p
              (.dispatching now claimUntil none held))
          else none
        | .permanent =>
          some ((s.updateRows (·.carries h claimUntil) (·.dispatchFailed h (s.clock p) true)).setProcess p
            (.dispatching now claimUntil none held))
        | .transient =>
          some ((s.updateRows (·.carries h claimUntil) (·.dispatchFailed h (s.clock p) false)).setProcess p
            (.dispatching now claimUntil none held))
      else none
    | _ => none
  | .sweepRead p orphans skipped =>
    match s.processes p with
    | .dispatching now claimUntil none [] =>
      let orphaned := fun r : ScheduledMessage =>
        match orphans, r.contactId.bind s.contacts.find? with
        | .missing, contact => contact.isNone
        | .unlinked, contact => contact.any (·.connectionId.isNone)
      let found := (s.rows.filter fun r => r.bulkJobId.isSome && r.status.isOpen &&
        decide (r.nextAttemptAt ≤ now) && orphaned r && decide (r.id ∉ skipped)).take 100
      some (s.setProcess p (.sweeping now claimUntil orphans.reason (found.map (·.id))))
    | _ => none
  | .sweepWrite p =>
    match s.processes p with
    | .sweeping now claimUntil reason ids =>
      let found := fun r : ScheduledMessage => decide (r.id ∈ ids) && r.status.isOpen
      if s.rowsFree found then
        some ((s.updateRows found (·.swept reason)).setProcess p (.dispatching now claimUntil none []))
      else none
    | _ => none
  | .markRunning jobId =>
    match s.jobs jobId with
    | some job =>
      if s.unlocked (.job jobId) ∧ job.status = .scheduled then
        some (s.setJob jobId { job with status := .running })
      else none
    | none => none
  | .finalizeRead p jobId =>
    match s.processes p, s.jobs jobId with
    | .idle, some job =>
      if job.status.finished then some s else some (s.setProcess p (.finalizing jobId job.status))
    | _, _ => none
  | .finalizeCount p =>
    match s.processes p with
    | .finalizing jobId status =>
      let progress := getBulkJobProgress s.rows s.jobs jobId
      if 0 < progress.pending + progress.processing then some (s.setProcess p .idle)
      else some (s.setProcess p (.drained jobId status progress))
    | _ => none
  | .finalizeWrite p =>
    match s.processes p with
    | .drained jobId status progress =>
      match s.jobs jobId with
      | none => some (s.setProcess p .idle)
      | some job =>
        if s.unlocked (.job jobId) then
          if status = .canceled then
            some ((s.setJob jobId { job with
              completedAt := if job.completedAt.isNone then some (s.clock p) else job.completedAt }).setProcess p .idle)
          else if job.status.isActive then
            some ((s.setJob jobId { job with
              status := deriveBulkJobOutcome progress
              completedAt := some (s.clock p) }).setProcess p .idle)
          else some (s.setProcess p .idle)
        else none
    | _ => none
  | .reschedule jobId scheduledAt =>
    if s.unlocked (.job jobId) ∧ s.rowsFree (·.leafOf jobId) then
      some ((s.rescheduleBulkJob jobId scheduledAt).getD s)
    else none
  | .cancelBegin p jobId =>
    match s.processes p, s.jobs jobId with
    | .idle, some job =>
      if s.unlocked (.job jobId) then
        if job.status.isActive then
          some ((s.lock p [.job jobId]).setProcess p (.canceling jobId (s.clock p)))
        else some s
      else none
    | _, _ => none
  | .cancelFind p =>
    match s.processes p with
    | .canceling jobId now =>
      let found := s.rows.filter fun r => r.leafOf jobId && decide (r.status = .scheduled ∨ r.status = .failed)
      some (s.setProcess p (.cancelFound jobId now (found.map (·.id))))
    | _ => none
  | .cancelWrite p =>
    match s.processes p with
    | .cancelFound jobId now ids =>
      let found := fun r : ScheduledMessage => decide (r.id ∈ ids) && decide (r.status = .scheduled ∨ r.status = .failed)
      if s.rowsFree fun r => decide (r.id ∈ ids) then
        let written := (s.rows.filter found).map (·.id)
        some ((s.lock p (written.map .leaf)).setProcess p (.cancelWritten jobId now written))
      else none
    | _ => none
  | .cancelCount p =>
    match s.processes p with
    | .cancelWritten jobId now ids =>
      let stillProcessing := s.rows.countP fun r => r.leafOf jobId && decide (r.status = .processing)
      some (s.setProcess p (.cancelCounted jobId now ids stillProcessing))
    | _ => none
  | .cancelCommit p =>
    match s.processes p with
    | .cancelCounted jobId now ids stillProcessing =>
      match s.jobs jobId with
      | none => none
      | some job =>
        some (((s.updateRows (fun r => decide (r.id ∈ ids)) (·.canceled)).setJob jobId { job with
          status := .canceled
          canceledAt := some now
          completedAt := if stillProcessing = 0 ∧ job.completedAt.isNone then some now else job.completedAt }).release
            p |>.setProcess p .idle)
    | _ => none
  | .purgeLock p connectionId =>
    match s.processes p, s.connections connectionId with
    | .idle, some connection =>
      if connection.archived ∧ s.unlocked (.connection connectionId) ∧
          (s.contactsOf connectionId).all (fun c => s.unlocked (.contact c)) then
        some ((s.lock p (.connection connectionId :: (s.contactsOf connectionId).map .contact)).setProcess p
          (.purging connectionId (s.contactsOf connectionId)))
      else none
    | _, _ => none
  | .purgeCount p =>
    match s.processes p with
    | .purging connectionId contactRows =>
      let counted := s.rows.filter fun r => r.bulkJobId.isSome && s.routed connectionId r
      some (s.setProcess p (.purgeCounted connectionId contactRows counted))
    | _ => none
  | .purgeDelete p =>
    match s.processes p with
    | .purgeCounted connectionId contactRows counted =>
      let jobIds := counted.filterMap (·.bulkJobId)
      if jobIds.all (fun j => s.unlocked (.job j)) ∧ s.rowsFree (s.routed connectionId) then
        let ids := (s.rows.filter (s.routed connectionId)).map (·.id)
        some ((s.lock p (jobIds.map .job ++ ids.map .leaf)).setProcess p (.purgeDeleted connectionId contactRows counted ids))
      else none
    | _ => none
  | .purgeCommit p =>
    match s.processes p with
    | .purgeDeleted connectionId _ counted ids =>
      some ({ s with
        rows := s.rows.filter fun r => !decide (r.id ∈ ids)
        jobs := fun jobId => (s.jobs jobId).map (purgeJob counted jobId)
        contacts := (s.contactsOf connectionId).foldl .erase s.contacts
        connections := Function.update s.connections connectionId none
        budgets := Function.update s.budgets connectionId none }.release p |>.setProcess p .idle)
    | _ => none
  | .crash p => some ((s.release p).setProcess p .idle)

/-- A tenant without schedules; the clocks of its replicas are anything. -/
def Tenant.empty (clock : ℕ → ℕ) : Tenant :=
  ⟨0, clock, .empty, fun _ => none, [], [], fun _ => none, fun _ => none, [], [], fun _ => .idle, [], []⟩

end TeamInbox.Broadcast
