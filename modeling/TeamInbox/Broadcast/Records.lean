import TeamInbox.Lib.Group
import TeamInbox.Lib.Table

/-!
# TeamInbox.Broadcast.Records — scheduled messages, broadcasts and their progress

A broadcast (`bulk_jobs`) has one leaf in `scheduled_messages` for every recipient; a message scheduled on
its own has no job.  The progress of a job is counted from its leaves and from the counters that keep what a
purge has deleted.  Times are milliseconds.  `claimNo` counts the claims of a row; the code has no such
column.
-/

namespace TeamInbox.Broadcast

open Lib

inductive ScheduledMessageStatus
  | scheduled
  | processing
  | sent
  | failed
  | canceled
  | skipped
  deriving DecidableEq

/-- `scheduled` or `processing`. -/
def ScheduledMessageStatus.isOpen : ScheduledMessageStatus → Bool
  | .scheduled | .processing => true
  | _ => false

/-- `sent`, `skipped` or `canceled`. -/
def ScheduledMessageStatus.final : ScheduledMessageStatus → Bool
  | .sent | .skipped | .canceled => true
  | _ => false

inductive BulkRecipientSkipReason
  | noJid
  | noConnection
  | connectionArchived
  | connectionFiltered
  | connectionChanged
  | blocked
  | isGroup
  | duplicateJid
  | contactMissing
  deriving DecidableEq

/-- A row of `scheduled_messages`. -/
structure ScheduledMessage where
  id : ℕ
  contactId : Option ℕ
  bulkJobId : Option ℕ
  scheduledAt : ℕ
  status : ScheduledMessageStatus
  attempts : ℕ
  nextAttemptAt : ℕ
  createdAt : ℕ
  sentMessageId : Option ℕ
  skipReason : Option BulkRecipientSkipReason
  claimNo : ℕ
  deriving DecidableEq

inductive BulkJobStatus
  | scheduled
  | running
  | completed
  | completedWithErrors
  | canceled
  deriving DecidableEq

/-- `scheduled` or `running`. -/
def BulkJobStatus.isActive : BulkJobStatus → Bool
  | .scheduled | .running => true
  | _ => false

/-- `completed` or `completed_with_errors`. -/
def BulkJobStatus.finished : BulkJobStatus → Bool
  | .completed | .completedWithErrors => true
  | _ => false

/-- A row of `bulk_jobs`. -/
structure BulkJob where
  status : BulkJobStatus
  scheduledAt : ℕ
  totalRecipients : ℕ
  skippedRecipients : ℕ
  purgedSent : ℕ
  purgedFailed : ℕ
  purgedCanceled : ℕ
  purgedSkipped : ℕ
  canceledAt : Option ℕ
  completedAt : Option ℕ
  deriving DecidableEq

/-- A row of `bulk_connection_budgets`. -/
structure Budget where
  nextEligibleAt : ℕ
  quotaDate : ℕ
  sentToday : ℕ
  deriving DecidableEq

/-- `BATCH_SIZE`, `MAX_ATTEMPTS` and `CLAIM_LEASE_MS`. -/
def batchSize : ℕ := 25
def maxAttempts : ℕ := 10
def claimLeaseMs : ℕ := 60000

def getScheduleRetryDelayMs (attempts : ℕ) : ℕ := min (15 * 60000) (30000 * 2 ^ min attempts 5)

theorem claimLease_le_retryDelay (attempts : ℕ) : claimLeaseMs ≤ getScheduleRetryDelayMs (attempts + 1) := by
  have hpow : 2 ^ 1 ≤ 2 ^ min (attempts + 1) 5 := Nat.pow_le_pow_right (by omega) (by omega)
  unfold claimLeaseMs getScheduleRetryDelayMs
  omega

/-! ### Limits -/

def hardMinSendIntervalMs : ℕ := 10000
def hardMaxRecipientsPerJob : ℕ := 500
def hardMaxDailyCap : ℕ := 1000

structure BulkConfig where
  sendIntervalMs : ℕ
  maxRecipientsPerJob : ℕ
  dailyCapPerConnection : ℕ
  interval_bound : hardMinSendIntervalMs ≤ sendIntervalMs
  recipients_bound : maxRecipientsPerJob ≤ hardMaxRecipientsPerJob
  cap_bound : dailyCapPerConnection ≤ hardMaxDailyCap

/-- `parsePositiveInt`, of a variable already read as a number. -/
def positiveOr (value : Option ℤ) (fallback : ℕ) : ℕ :=
  match value with
  | some n => if 0 < n then n.toNat else fallback
  | none => fallback

/-- `getBulkConfig`; the values are the environment's, where they read as numbers. -/
def getBulkConfig (interval recipients cap : Option ℤ) : BulkConfig where
  sendIntervalMs := max hardMinSendIntervalMs (min (positiveOr interval 12000) 9007199254740991)
  maxRecipientsPerJob := min hardMaxRecipientsPerJob (max 1 (positiveOr recipients 100))
  dailyCapPerConnection := min hardMaxDailyCap (max 1 (positiveOr cap 200))
  interval_bound := le_max_left _ _
  recipients_bound := min_le_left _ _
  cap_bound := min_le_left _ _

/-! ### What the statements do to a row -/

namespace ScheduledMessage

def carries (r h : ScheduledMessage) (claimToken : ℕ) : Bool :=
  decide (r.id = h.id) && decide (r.status = .processing) && decide (r.nextAttemptAt = claimToken)

def claimedUntil (r : ScheduledMessage) (claimUntil : ℕ) : ScheduledMessage :=
  { r with
    status := .processing
    nextAttemptAt := claimUntil
    claimNo := r.claimNo + 1 }

/-- `markDispatched`; `h` is the row as it was when it was claimed. -/
def dispatched (r h : ScheduledMessage) (messageId : ℕ) : ScheduledMessage :=
  { r with
    status := .sent
    sentMessageId := some messageId
    attempts := h.attempts + 1 }

def exhausted (h : ScheduledMessage) (permanent : Bool) : Bool :=
  permanent || decide (maxAttempts ≤ h.attempts + 1)

/-- `recordDispatchFailure`. -/
def dispatchFailed (r h : ScheduledMessage) (now : ℕ) (permanent : Bool) : ScheduledMessage :=
  { r with
    status := if h.exhausted permanent then .failed else .scheduled
    attempts := h.attempts + 1
    nextAttemptAt := now + getScheduleRetryDelayMs (h.attempts + 1) }

/-- `recordBulkSkip`. -/
def bulkSkipped (r h : ScheduledMessage) (reason : BulkRecipientSkipReason) : ScheduledMessage :=
  { r with
    status := .skipped
    skipReason := some reason
    attempts := h.attempts + 1 }

/-- `sweepOrphanedBulkLeaves`. -/
def swept (r : ScheduledMessage) (reason : BulkRecipientSkipReason) : ScheduledMessage :=
  { r with
    status := .skipped
    skipReason := some reason }

def canceled (r : ScheduledMessage) : ScheduledMessage := { r with status := .canceled }

def rescheduled (r : ScheduledMessage) (scheduledAt : ℕ) : ScheduledMessage :=
  { r with
    scheduledAt := scheduledAt
    nextAttemptAt := scheduledAt }

/-- A row of a new schedule, or of a new broadcast. -/
def fresh (id : ℕ) (contactId bulkJobId : Option ℕ) (scheduledAt createdAt : ℕ)
    (skipReason : Option BulkRecipientSkipReason) : ScheduledMessage where
  id := id
  contactId := contactId
  bulkJobId := bulkJobId
  scheduledAt := scheduledAt
  status := if skipReason.isSome then .skipped else .scheduled
  attempts := 0
  nextAttemptAt := scheduledAt
  createdAt := createdAt
  sentMessageId := none
  skipReason := skipReason
  claimNo := 0

def leafOf (r : ScheduledMessage) (job : ℕ) : Bool := decide (r.bulkJobId = some job)

end ScheduledMessage

/-! ### Progress -/

structure BulkJobProgress where
  total : ℕ
  pending : ℕ
  processing : ℕ
  sent : ℕ
  failed : ℕ
  canceled : ℕ
  skipped : ℕ
  deriving DecidableEq

def getBulkJobProgress (rows : List ScheduledMessage) (jobs : ℕ → Option BulkJob) (bulkJobId : ℕ) :
    BulkJobProgress :=
  let byStatus := groupCount (·.status) (rows.filter (·.leafOf bulkJobId))
  let count := fun status => (byStatus.lookup status).getD 0
  let retained := jobs bulkJobId
  let pending := count .scheduled
  let processing := count .processing
  let sent := count .sent + (retained.map (·.purgedSent)).getD 0
  let failed := count .failed + (retained.map (·.purgedFailed)).getD 0
  let canceled := count .canceled + (retained.map (·.purgedCanceled)).getD 0
  let skipped := count .skipped + (retained.map (·.purgedSkipped)).getD 0
  ⟨pending + processing + sent + failed + canceled + skipped, pending, processing, sent, failed, canceled,
    skipped⟩

def countLeaves (rows : List ScheduledMessage) (bulkJobId : ℕ) (status : ScheduledMessageStatus) : ℕ :=
  rows.countP fun r => r.leafOf bulkJobId && decide (r.status = status)

theorem lookup_byStatus (rows : List ScheduledMessage) (bulkJobId : ℕ) (status : ScheduledMessageStatus) :
    ((groupCount (·.status) (rows.filter (·.leafOf bulkJobId))).lookup status).getD 0 =
      countLeaves rows bulkJobId status := by
  rw [lookup_groupCount, List.countP_filter]
  refine List.countP_congr fun r _ => ?_
  simp [and_comm]

theorem getBulkJobProgress_open (rows : List ScheduledMessage) (jobs : ℕ → Option BulkJob) (bulkJobId : ℕ) :
    (getBulkJobProgress rows jobs bulkJobId).pending = countLeaves rows bulkJobId .scheduled ∧
      (getBulkJobProgress rows jobs bulkJobId).processing = countLeaves rows bulkJobId .processing :=
  ⟨lookup_byStatus rows bulkJobId .scheduled, lookup_byStatus rows bulkJobId .processing⟩

theorem getBulkJobProgress_closed (rows : List ScheduledMessage) {jobs : ℕ → Option BulkJob} {bulkJobId : ℕ}
    {job : BulkJob} (hjob : jobs bulkJobId = some job) :
    (getBulkJobProgress rows jobs bulkJobId).sent = countLeaves rows bulkJobId .sent + job.purgedSent ∧
      (getBulkJobProgress rows jobs bulkJobId).failed =
        countLeaves rows bulkJobId .failed + job.purgedFailed ∧
      (getBulkJobProgress rows jobs bulkJobId).canceled =
        countLeaves rows bulkJobId .canceled + job.purgedCanceled ∧
      (getBulkJobProgress rows jobs bulkJobId).skipped =
        countLeaves rows bulkJobId .skipped + job.purgedSkipped := by
  unfold getBulkJobProgress
  simp only [hjob, lookup_byStatus, Option.map_some, Option.getD_some, and_self]

theorem getBulkJobProgress_total (rows : List ScheduledMessage) (jobs : ℕ → Option BulkJob) (bulkJobId : ℕ) :
    (getBulkJobProgress rows jobs bulkJobId).total =
      (getBulkJobProgress rows jobs bulkJobId).pending + (getBulkJobProgress rows jobs bulkJobId).processing +
        (getBulkJobProgress rows jobs bulkJobId).sent + (getBulkJobProgress rows jobs bulkJobId).failed +
        (getBulkJobProgress rows jobs bulkJobId).canceled + (getBulkJobProgress rows jobs bulkJobId).skipped :=
  rfl

theorem isOpen_of_drained {rows : List ScheduledMessage} {jobs : ℕ → Option BulkJob} {bulkJobId : ℕ}
    (h : (getBulkJobProgress rows jobs bulkJobId).pending +
      (getBulkJobProgress rows jobs bulkJobId).processing = 0) {r : ScheduledMessage} (hr : r ∈ rows)
    (hleaf : r.bulkJobId = some bulkJobId) : r.status.isOpen = false := by
  obtain ⟨hpending, hprocessing⟩ := getBulkJobProgress_open rows jobs bulkJobId
  have hnone : ∀ status, countLeaves rows bulkJobId status = 0 → r.status ≠ status := by
    intro status hzero hstatus
    have hnot := List.countP_eq_zero.mp hzero r hr
    simp [ScheduledMessage.leafOf, hleaf, hstatus] at hnot
  have hscheduled := hnone .scheduled (by omega)
  have hclaimed := hnone .processing (by omega)
  cases hstatus : r.status <;> first | rfl | contradiction

namespace BulkJobProgress

def zero : BulkJobProgress := ⟨0, 0, 0, 0, 0, 0, 0⟩

def ofRetained (job : BulkJob) : BulkJobProgress :=
  ⟨job.purgedSent + job.purgedFailed + job.purgedCanceled + job.purgedSkipped, 0, 0, job.purgedSent,
    job.purgedFailed, job.purgedCanceled, job.purgedSkipped⟩

def addGroup (p : BulkJobProgress) (status : ScheduledMessageStatus) (count : ℕ) : BulkJobProgress :=
  let q := match status with
    | .scheduled => { p with pending := p.pending + count }
    | .processing => { p with processing := p.processing + count }
    | .sent => { p with sent := p.sent + count }
    | .failed => { p with failed := p.failed + count }
    | .canceled => { p with canceled := p.canceled + count }
    | .skipped => { p with skipped := p.skipped + count }
  { q with total := q.total + count }

end BulkJobProgress

def getBulkJobProgressMap (rows : List ScheduledMessage) (jobs : ℕ → Option BulkJob)
    (bulkJobIds : List ℕ) : Table ℕ BulkJobProgress :=
  let groups := groupCount (fun r => (r.bulkJobId, r.status))
    (rows.filter fun r => r.bulkJobId.any fun id => decide (id ∈ bulkJobIds))
  let retainedRows := bulkJobIds.dedup.filterMap fun id => (jobs id).map fun job => (id, job)
  let map := retainedRows.foldl (fun map row => map.put row.1 (.ofRetained row.2)) .empty
  groups.foldl (fun map row => match row.1.1 with
    | some jobId => map.put jobId (((map.find? jobId).getD .zero).addGroup row.1.2 row.2)
    | none => map) map

def deriveBulkJobOutcome (progress : BulkJobProgress) : BulkJobStatus :=
  if 0 < progress.failed ∨ 0 < progress.skipped then .completedWithErrors else .completed

end TeamInbox.Broadcast
