import TeamInbox.Lib.Calls
import TeamInbox.Messages.Handlers
import TeamInbox.Worker.SendCommand
import Mathlib.Data.List.Sort

/-!
# TeamInbox.Messages.LedgerCleanup — the cleanup of stale sends

`cleanupCompanyMessages` runs two statements over the messages of a company: `reconcileProcessedCommands` takes
over what the ledger of the worker says of a send, and the timeout fails what nobody accounts for.  A statement
sees the tables as they were when it began (`seen`).  It skips the rows that others have locked, and looks at the
newest version of a row again before it writes it.  Ledger, handlers and senders write at any time between its
beginning and its end.

The channel spine stores its sends in the same table, without a message id and never without metadata; neither
statement selects them, and they are not among the rows here.
-/

namespace TeamInbox.Messages

open Lib

open Worker (CommandID Ledger StoredCommandResult)

/-- A row of `nats_outbox`: the company and the session are the third and fourth part of its subject, the rest is of
its payload. -/
structure OutboxCommand where
  companyId : String
  sessionId : String
  commandId : CommandID
  messageId : Option String
  deriving DecidableEq

/-- The tables of a company: the messages of every connection, the outbox, and the ledger of every session. -/
structure CompanyDb where
  messages : String → MessageStore
  outbox : List OutboxCommand
  ledgers : String → Ledger StoredCommandResult

def CompanyDb.empty : CompanyDb := ⟨fun _ => .empty, [], fun _ => Table.empty⟩

/-! ### The ledger -/

/-- `NULLIF(pc.result->'response'->>'ID', '')`. -/
def responseId (r : StoredCommandResult) : Option String := givenId (some r.response.id)

def processed (r : StoredCommandResult) : Bool := r.failed || (responseId r).isSome

/-- The send has ended, or the worker is still on it, or it does not know. -/
def accounted (r : StoredCommandResult) : Bool := r.failed || r.inFlight || r.unknown || (responseId r).isSome

namespace CompanyDb

variable (companyId : String)

/-- The commands of the company with their rows of `processed_commands`. -/
def processedCommands (s : CompanyDb) : List (OutboxCommand × StoredCommandResult) :=
  s.outbox.filterMap fun command =>
    if command.companyId = companyId then
      ((s.ledgers command.sessionId).getProcessedCommand command.commandId).map (command, ·)
    else none

/-- What `reconcileProcessedCommands` joins to a message. -/
def outcomes (s : CompanyDb) (messageId : String) : List StoredCommandResult :=
  ((s.processedCommands companyId).filter fun c =>
    decide (c.1.messageId = some messageId) && decide (c.2.pendingMessageID = messageId) && processed c.2).map (·.2)

def accountedFor (s : CompanyDb) (messageId : String) : Bool :=
  (s.processedCommands companyId).any fun c => decide (c.2.pendingMessageID = messageId) && accounted c.2

end CompanyDb

/-! ### The statements -/

structure CleanupCycle where
  cutoff : ℕ
  timeoutMinutes : ℕ
  batchSize : ℕ
  deriving DecidableEq

def CleanupCycle.errorMessage (w : CleanupCycle) : String :=
  "Message delivery timed out after " ++ toString w.timeoutMinutes ++ " minutes"

def undecided (r : MessageRow) : Bool :=
  decide (r.status = some .pending) ||
    decide (r.status = some .failed) && r.metadata.any fun m => decide (m.find? "error" = some deliveryTimeout)

def clearTimeout (m : Option Metadata) : Option Metadata :=
  m.bind fun m =>
    if m.find? "error" = some deliveryTimeout then
      nullIfEmpty (((m.erase "error").erase "error_message").erase "failed_at")
    else some m

def reconcileSets (o : StoredCommandResult) (failedAt : String) (r : MessageRow) : MessageRow :=
  { r with
    messageId := if o.failed then r.messageId else (responseId o).getD r.messageId
    status := some (if o.failed then .failed else .sent)
    metadata := if o.failed then
        some (mergeEntries r.metadata [("error", "send_failed"),
          ("error_message", (givenId (some o.errorMessage)).getD "WhatsApp send failed"), ("failed_at", failedAt)])
      else clearTimeout r.metadata }

/-- A row of the CTE `outcomes`. -/
structure OutcomeRow where
  connectionId : String
  row : MessageRow
  result : StoredCommandResult

section Statements

variable (companyId : String) (connections : List String) (timestamp : ℕ → ℕ)

/-- `ORDER BY m.timestamp ASC, m.id ASC`. -/
def Earlier (a b : String × MessageRow) : Prop :=
  timestamp a.2.id < timestamp b.2.id ∨ timestamp a.2.id = timestamp b.2.id ∧ a.2.id ≤ b.2.id

instance : DecidableRel (Earlier timestamp) := fun a b =>
  inferInstanceAs (Decidable (timestamp a.2.id < timestamp b.2.id ∨ _ ∧ _))

def examined (selects : MessageRow → Bool) (seen : CompanyDb) : List (String × MessageRow) :=
  (connections.flatMap fun c => ((seen.messages c).rows.filter selects).map (c, ·)).insertionSort (Earlier timestamp)

def reconcilable (w : CleanupCycle) (r : MessageRow) : Bool :=
  undecided r && r.fromMe && decide (timestamp r.id < w.cutoff)

def outcomeRows (w : CleanupCycle) (seen : CompanyDb) : List OutcomeRow :=
  (examined connections timestamp (reconcilable timestamp w) seen).flatMap fun m =>
    (seen.outcomes companyId m.2.messageId).map fun o => ⟨m.1, m.2, o⟩

/-- The newest version of a row is still one to write. -/
def stillMeets (db : CompanyDb) (c : String) (id : ℕ) (selects : MessageRow → Bool) : Bool :=
  (db.messages c).rows.any fun r => decide (r.id = id) && selects r

/-- The CTE `outcomes`: `LIMIT … FOR UPDATE OF m SKIP LOCKED`. -/
def reconcileBatch (w : CleanupCycle) (seen db : CompanyDb) (locked : List (String × ℕ)) : List OutcomeRow :=
  ((outcomeRows companyId connections timestamp w seen).filter fun o =>
    decide ((o.connectionId, o.row.id) ∉ locked) &&
      stillMeets db o.connectionId o.row.id fun r =>
        decide (r.messageId = o.row.messageId) && reconcilable timestamp w r).take w.batchSize

def outcomeOf (batch : List OutcomeRow) (c : String) (r : MessageRow) : Option StoredCommandResult :=
  (batch.find? fun o => decide (o.connectionId = c) && decide (o.row.id = r.id)).map (·.result)

/-- The `UPDATE` of a row: one of the outcomes joined to it is applied. -/
def reconcileRow (batch : List OutcomeRow) (failedAt : String) (c : String) (r : MessageRow) : MessageRow :=
  match outcomeOf batch c r with
  | some o => if undecided r then reconcileSets o failedAt r else r
  | none => r

def stale (w : CleanupCycle) (seen : CompanyDb) (r : MessageRow) : Bool :=
  expireSelects r.id r && decide (timestamp r.id < w.cutoff) && !seen.accountedFor companyId r.messageId

/-- The CTE `stale`. -/
def expireBatch (w : CleanupCycle) (seen db : CompanyDb) (locked : List (String × ℕ)) : List (String × ℕ) :=
  (((examined connections timestamp (stale companyId timestamp w seen) seen).map fun m => (m.1, m.2.id)).filter
    fun k => decide (k ∉ locked) && stillMeets db k.1 k.2 (stale companyId timestamp w seen)).take w.batchSize

def expireRow (w : CleanupCycle) (seen : CompanyDb) (batch : List (String × ℕ)) (failedAt : String) (c : String)
    (r : MessageRow) : MessageRow :=
  if decide ((c, r.id) ∈ batch) && stale companyId timestamp w seen r then expireSets w.errorMessage failedAt r else r

/-- An `UPDATE` of the messages of all connections. -/
def CompanyDb.rewrite (s : CompanyDb) (f : String → MessageRow → MessageRow) : Except HandlerError CompanyDb :=
  if ∀ c ∈ connections, (((s.messages c).rows.map (f c)).map (·.messageId)).Nodup then
    .ok { s with messages := fun c => { s.messages c with rows := (s.messages c).rows.map (f c) } }
  else .error .uniqueViolation

/-! ### Cycles -/

/-- A statement that has run: the tables it saw when it began and those it met when it wrote, the rows others had
locked, and whether it took a whole batch. -/
structure Pass where
  seen : CompanyDb
  met : CompanyDb
  locked : List (String × ℕ)
  exhausted : Bool

inductive CleanupCall
  | idle
  /-- `reconcileProcessedCommands` runs -/
  | reconciling (w : CleanupCycle) (seen : CompanyDb)
  | reconciled (w : CleanupCycle) (first : Pass)
  | expiring (w : CleanupCycle) (first : Pass) (seen : CompanyDb)
  | finished (w : CleanupCycle) (first second : Pass)
  | aborted

/-- `locked` are the rows other transactions hold while the statement runs. -/
inductive CleanupAction
  | begin (now timeoutMinutes batchSize : ℕ)
  | reconcile (locked : List (String × ℕ)) (failedAt : String)
  | examine
  | expire (locked : List (String × ℕ)) (failedAt : String)

def reconcileStep (s : CompanyDb) (w : CleanupCycle) (seen : CompanyDb) (locked : List (String × ℕ))
    (failedAt : String) : CompanyDb × CleanupCall :=
  let batch := reconcileBatch companyId connections timestamp w seen s locked
  match s.rewrite connections (reconcileRow batch failedAt) with
  | .ok s' => (s', .reconciled w ⟨seen, s, locked, decide (w.batchSize ≤ batch.length)⟩)
  | .error _ => (s, .aborted)

def expireStep (s : CompanyDb) (w : CleanupCycle) (first : Pass) (seen : CompanyDb) (locked : List (String × ℕ))
    (failedAt : String) : CompanyDb × CleanupCall :=
  let batch := expireBatch companyId connections timestamp w seen s locked
  match s.rewrite connections (expireRow companyId timestamp w seen batch failedAt) with
  | .ok s' => (s', .finished w first ⟨seen, s, locked, decide (w.batchSize ≤ batch.length)⟩)
  | .error _ => (s, .aborted)

/-- `cleanupCompanyMessages`, a cycle for each call. -/
def cleanupAct (_ : ℕ) (s : CompanyDb) : CleanupCall → CleanupAction → Option (CompanyDb × CleanupCall)
  | .idle, .begin now timeoutMinutes batchSize =>
    some (s, .reconciling ⟨now - timeoutMinutes * 60 * 1000, timeoutMinutes, batchSize⟩ s)
  | .reconciling w seen, .reconcile locked failedAt =>
    some (reconcileStep companyId connections timestamp s w seen locked failedAt)
  | .reconciled w first, .examine => some (s, .expiring w first s)
  | .expiring w first seen, .expire locked failedAt =>
    some (expireStep companyId connections timestamp s w first seen locked failedAt)
  | _, _ => none

/-! ### The other writers -/

/-- The statements of the worker, and the pruning of the ledger. -/
inductive LedgerWrite
  | begin (commandType : String) (intent : StoredCommandResult)
  | save (commandType : String) (result : StoredCommandResult)
  | mark
  | prune

def LedgerWrite.apply (l : Ledger StoredCommandResult) (commandId : CommandID) :
    LedgerWrite → Ledger StoredCommandResult
  | .begin commandType intent => (l.beginSendCommand commandId commandType intent).2
  | .save commandType result => l.saveProcessedCommand (·.inFlight) commandId commandType result
  | .mark => l.markCommandEventPublished commandId
  | .prune => l.erase commandId

inductive CompanyEvent
  /-- a message is stored with its command; a scheduled document brings the name of its file along -/
  | send (connectionId : String) (id : ℕ) (messageId : String) (metadata : Option Metadata) (sessionId : String)
      (commandId : CommandID)
  | enqueue (command : OutboxCommand)
  | message (connectionId : String) (a : MessageAction)
  | ledger (sessionId : String) (commandId : CommandID) (write : LedgerWrite)

/-- The events of the worker and of WhatsApp, and the end of a command's attempts. -/
def MessageAction.reported : MessageAction → Bool
  | .create .. | .expire .. => false
  | _ => true

def CompanyDb.setMessages (s : CompanyDb) (c : String) (store : MessageStore) : CompanyDb :=
  { s with messages := Function.update s.messages c store }

def storeSend (s : CompanyDb) (c : String) (r : MessageRow) (command : OutboxCommand) : Option CompanyDb :=
  if r.id ∈ (s.messages c).rows.map (·.id) then none
  else match (s.messages c).insert r with
    | .ok store => some { s.setMessages c store with outbox := s.outbox ++ [command] }
    | .error _ => some s

def companyEnv : CompanyEvent → CompanyDb → Option CompanyDb
  | .send c id messageId metadata sessionId commandId, s =>
    storeSend s c ⟨id, messageId, true, some .pending, metadata⟩ ⟨companyId, sessionId, commandId, some messageId⟩
  | .enqueue command, s => some { s with outbox := s.outbox ++ [command] }
  | .message c a, s => if a.reported then (messageStep (s.messages c) a).map (s.setMessages c) else none
  | .ledger sessionId commandId write, s =>
    some { s with ledgers := Function.update s.ledgers sessionId (write.apply (s.ledgers sessionId) commandId) }

def cleanupSystem : Machine CompanyDb CleanupCall CleanupAction CompanyEvent where
  act := cleanupAct companyId connections timestamp
  env := companyEnv companyId

end Statements

end TeamInbox.Messages
