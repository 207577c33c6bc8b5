import TeamInbox.Lib.Run
import Mathlib.Algebra.Group.Nat.Defs
import Mathlib.Data.List.Sort

/-!
# TeamInbox.Outbox.CommandOutbox — the durable command outbox

Commands are accepted by inserting a row inside a transaction that holds the advisory lock of subject and
recipient, and published by replicas that claim rows for a lease.  The lease deadline doubles as the token
of the claim: renewal and outcome are written only where it still stands in the row.  One step is one
statement of one replica; the claim transaction is one step, which takes any of the rows it finds (others
may be locked), up to a batch.  A publication is sent, stored by the stream at any time after, and answered;
an error may be the answer of one that is stored.  Times are microseconds of the database.  `claimNo`
counts the claims of a row; the code has no such column.
-/

namespace TeamInbox.Outbox

/-- A UUID, as the number the database orders it by. -/
abbrev OutboxId := ℕ

inductive OutboxStatus
  | pending
  | claimed
  | published
  | failed
  deriving DecidableEq

/-- `pending` or `claimed`. -/
def OutboxStatus.waiting : OutboxStatus → Bool
  | .pending | .claimed => true
  | _ => false

/-- A row of `nats_outbox`; `recipient` is `payload->>'to'`. -/
structure OutboxRow where
  id : OutboxId
  subject : String
  recipient : Option String
  status : OutboxStatus
  attempts : ℕ
  nextAttemptAt : ℕ
  createdAt : ℕ
  claimNo : ℕ
  deriving DecidableEq

/-- What a dispatcher keeps of a row it has claimed. -/
structure Claimed where
  id : OutboxId
  attempts : ℕ
  claimUntil : ℕ
  claimNo : ℕ
  deriving DecidableEq

/-- Where a call of `dispatchCompany` stands. -/
inductive Dispatcher
  | idle
  | batch (rows : List Claimed)
  /-- the lease is renewed, `publish` is running -/
  | publishing (row : Claimed) (rest : List Claimed)
  /-- the publication returned, `ok` or with an error -/
  | settling (row : Claimed) (rest : List Claimed) (ok : Bool)
  deriving DecidableEq

def Dispatcher.entries : Dispatcher → List Claimed
  | .idle => []
  | .batch rows => rows
  | .publishing row rest | .settling row rest _ => row :: rest

structure OutboxState where
  now : ℕ
  /-- advisory locks of subject and recipient, with the transaction that holds them -/
  locks : List ((String × String) × ℕ)
  uncommitted : List (ℕ × OutboxRow)
  /-- committed rows, in the order of their commits -/
  rows : List OutboxRow
  dispatchers : ℕ → Dispatcher
  /-- publications under way to the stream -/
  sent : List OutboxId
  /-- the stream; a second publication under the same id is dropped -/
  broker : List OutboxId

inductive OutboxAction
  | tick (duration : ℕ)
  | lock (tx : ℕ) (subject recipient : String)
  | insert (tx : ℕ) (id : OutboxId) (subject : String) (recipient : Option String)
  | commit (tx : ℕ)
  | rollback (tx : ℕ)
  /-- `skipped` are the rows others hold locks on. -/
  | claim (d : ℕ) (skipped : List OutboxId)
  | renew (d : ℕ)
  | send (d : ℕ)
  | store (id : OutboxId)
  | answer (d : ℕ) (ok : Bool)
  | settle (d : ℕ) (persisted : Bool)
  | crash (d : ℕ)
  deriving DecidableEq

/-- `BATCH_SIZE`, `MAX_ATTEMPTS` and `CLAIM_LEASE_MS`. -/
def batchSize : ℕ := 25
def maxAttempts : ℕ := 10
def claimLeaseMs : ℕ := 30000

/-- `date_trunc('milliseconds', statement_timestamp() + CLAIM_LEASE_MS)`. -/
def nextLease (now : ℕ) : ℕ := (now + claimLeaseMs * 1000) / 1000 * 1000

def getOutboxRetryDelayMs (attempts : ℕ) : ℕ := min 60000 (1000 * 2 ^ min attempts 6)

namespace OutboxRow

/-- `(created_at, id) < (created_at, id)`, for one subject and recipient. -/
def earlier (r s : OutboxRow) : Bool :=
  decide (r.subject = s.subject) && r.recipient.isSome && decide (r.recipient = s.recipient) &&
    (decide (r.createdAt < s.createdAt) || (decide (r.createdAt = s.createdAt) && decide (r.id < s.id)))

def claimable (rows : List OutboxRow) (now : ℕ) (r : OutboxRow) : Bool :=
  r.status.waiting && decide (r.nextAttemptAt ≤ now) &&
    !rows.any fun e => e.earlier r && e.status.waiting

def carries (r : OutboxRow) (c : Claimed) : Bool :=
  decide (r.id = c.id) && decide (r.status = .claimed) && decide (r.nextAttemptAt = c.claimUntil)

def claimedAt (r : OutboxRow) (now : ℕ) : OutboxRow :=
  { r with
    status := .claimed
    nextAttemptAt := nextLease now
    claimNo := r.claimNo + 1 }

def renewedAt (r : OutboxRow) (now : ℕ) : OutboxRow := { r with nextAttemptAt := nextLease now }

def outcome (r : OutboxRow) (now attempts : ℕ) (ok : Bool) : OutboxRow :=
  if ok then
    { r with
      status := .published
      attempts := attempts + 1 }
  else
    { r with
      status := if maxAttempts ≤ attempts + 1 then .failed else .pending
      attempts := attempts + 1
      nextAttemptAt := now + getOutboxRetryDelayMs (attempts + 1) * 1000 }

end OutboxRow

/-- `ORDER BY created_at LIMIT … FOR UPDATE SKIP LOCKED`. -/
def claimBatch (s : OutboxState) (skipped : List OutboxId) : List OutboxRow :=
  (((s.rows.filter (OutboxRow.claimable s.rows s.now)).insertionSort fun r t =>
    r.createdAt ≤ t.createdAt).filter fun r => decide (r.id ∉ skipped)).take batchSize

/-- After a row comes the next one, or the call returns. -/
def Dispatcher.next : List Claimed → Dispatcher
  | [] => .idle
  | c :: rest => .batch (c :: rest)

namespace OutboxState

def setDispatcher (s : OutboxState) (d : ℕ) (x : Dispatcher) : OutboxState :=
  { s with dispatchers := Function.update s.dispatchers d x }

/-- `UPDATE … SET … WHERE …`. -/
def updateRows (s : OutboxState) (p : OutboxRow → Bool) (g : OutboxRow → OutboxRow) : OutboxState :=
  { s with rows := s.rows.map fun r => if p r then g r else r }

/-- The identifier of a new row is fresh, and the statement times of one recipient are distinct. -/
def accepts (s : OutboxState) (id : OutboxId) (subject : String) (recipient : Option String) : Bool :=
  (s.rows ++ s.uncommitted.map (·.2)).all fun r => decide (r.id ≠ id) &&
    !(decide (r.subject = subject) && recipient.isSome && decide (r.recipient = recipient) &&
      decide (r.createdAt = s.now))

end OutboxState

def outboxStep (s : OutboxState) : OutboxAction → Option OutboxState
  | .tick duration => some { s with now := s.now + duration }
  | .lock tx subject recipient =>
    if s.locks.all fun l => decide (l.1 = (subject, recipient) → l.2 = tx) then
      some { s with locks := ((subject, recipient), tx) :: s.locks }
    else none
  | .insert tx id subject recipient =>
    -- a command without a recipient takes no lock
    if s.accepts id subject recipient ∧ ∀ k ∈ recipient, ((subject, k), tx) ∈ s.locks then
      some { s with
        uncommitted := s.uncommitted ++ [(tx, ⟨id, subject, recipient, .pending, 0, s.now, s.now, 0⟩)] }
    else none
  | .commit tx =>
    some { s with
      rows := s.rows ++ (s.uncommitted.filter fun u => decide (u.1 = tx)).map (·.2)
      uncommitted := s.uncommitted.filter fun u => !decide (u.1 = tx)
      locks := s.locks.filter fun l => !decide (l.2 = tx) }
  | .rollback tx =>
    some { s with
      uncommitted := s.uncommitted.filter fun u => !decide (u.1 = tx)
      locks := s.locks.filter fun l => !decide (l.2 = tx) }
  | .claim d skipped =>
    match s.dispatchers d with
    | .idle =>
      let chosen := claimBatch s skipped
      some ((s.updateRows (fun r => decide (r.id ∈ chosen.map (·.id))) (·.claimedAt s.now)).setDispatcher d
        (.next (chosen.map fun r => ⟨r.id, r.attempts, nextLease s.now, r.claimNo + 1⟩)))
    | _ => none
  | .renew d =>
    match s.dispatchers d with
    | .batch (c :: rest) =>
      if s.rows.any (·.carries c) then
        some ((s.updateRows (·.carries c) (·.renewedAt s.now)).setDispatcher d
          (.publishing { c with claimUntil := nextLease s.now } rest))
      else some (s.setDispatcher d (.next rest))
    | _ => none
  | .send d =>
    match s.dispatchers d with
    | .publishing c _ => some { s with sent := c.id :: s.sent }
    | _ => none
  | .store id =>
    if id ∈ s.sent then
      some { s with broker := if id ∈ s.broker then s.broker else s.broker ++ [id] }
    else none
  | .answer d ok =>
    match s.dispatchers d with
    | .publishing c rest =>
      if ok = true → c.id ∈ s.broker then some (s.setDispatcher d (.settling c rest ok)) else none
    | _ => none
  | .settle d persisted =>
    match s.dispatchers d with
    | .settling c rest ok =>
      if persisted then
        some ((s.updateRows (·.carries c) (·.outcome s.now c.attempts ok)).setDispatcher d (.next rest))
      else
        -- an exception on the outcome of a success is caught, one on a failure ends the call
        some (s.setDispatcher d (if ok then .next rest else .idle))
    | _ => none
  | .crash d => some (s.setDispatcher d .idle)

def emptyOutbox : OutboxState := ⟨0, [], [], [], fun _ => .idle, [], []⟩

end TeamInbox.Outbox
