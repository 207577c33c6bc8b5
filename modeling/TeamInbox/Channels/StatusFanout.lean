import TeamInbox.Lib.Locks
import TeamInbox.Channels.Outbound

/-!
# TeamInbox.Channels.StatusFanout — the fan-out of a status

`completeClaim` writes the status of a message and queues its fan-out in one transaction;
`dispatchChannelMessageDelivery` locks a due row of the outbox, reads the message, broadcasts it and deletes the
row, in another.  Every statement is a step of its own and sees what has been committed before it.  An
`INSERT … ON CONFLICT DO NOTHING` is dropped at once if a committed row bears the key, locked or not; it waits only
for a transaction that has inserted or deleted the key itself.

For the record, a state keeps the broadcasts (the newest first) with the number of status changes each has seen,
the deliveries that have read their message, and the completions whose insert has been dropped.
-/

namespace TeamInbox.Channels

open TeamInbox.Lib
open TeamInbox.Messages (MessageStatus)

inductive DeliveryKind
  | realtime
  | push
  deriving DecidableEq

/-- A row of `channel_message_delivery_outbox`. -/
structure DeliveryRow where
  messageId : ℕ
  kind : DeliveryKind
  attempts : ℕ
  nextAttemptAt : ℕ
  createdAt : ℕ
  deriving DecidableEq

inductive FanoutLock
  /-- of the row of `messages` -/
  | message (id : ℕ)
  | job (id : ℕ) (kind : DeliveryKind)
  /-- of whoever has inserted or deleted the key -/
  | key (id : ℕ) (kind : DeliveryKind)
  deriving DecidableEq

structure Announcement where
  messageId : ℕ
  status : MessageStatus
  /-- the status changes the read has seen -/
  seen : ℕ
  deriving DecidableEq

structure Fanout where
  messages : ℕ → Option OutboundMessage
  outbox : List DeliveryRow
  locks : Locks FanoutLock
  /-- the status changes of each message -/
  changes : ℕ → ℕ
  broadcasts : List Announcement
  /-- deliveries that have read their message, with it -/
  reading : List (ℕ × ℕ)
  /-- completions whose insert was dropped, with their message -/
  dropped : List (ℕ × ℕ)

namespace Fanout

def empty : Fanout := ⟨fun _ => none, [], .unlocked, fun _ => 0, [], [], []⟩

def isJob (id : ℕ) (kind : DeliveryKind) (r : DeliveryRow) : Bool := decide (r.messageId = id) && decide (r.kind = kind)

def queued (s : Fanout) (id : ℕ) (kind : DeliveryKind) : Bool := s.outbox.any (isJob id kind)

def lock (p : ℕ) (k : FanoutLock) (s : Fanout) : Option Fanout := (s.locks.take p k).map fun locks => { s with locks }

def stopReading (p : ℕ) (s : Fanout) : Fanout := { s with reading := s.reading.filter fun r => decide (r.1 ≠ p) }

/-- The transaction of `p` ends. -/
def finish (p : ℕ) (s : Fanout) : Fanout :=
  { s.stopReading p with
    locks := s.locks.release p
    dropped := s.dropped.filter fun d => decide (d.1 ≠ p) }

def setMessage (id : ℕ) (m : OutboundMessage) (s : Fanout) : Fanout :=
  { s with messages := Function.update s.messages id (some m) }

def change (id : ℕ) (m : OutboundMessage) (s : Fanout) : Fanout :=
  { s.setMessage id m with changes := Function.update s.changes id (s.changes id + 1) }

/-- `LEAST(attempts + 1, 30)`, and a wait of `LEAST(300, 2 ^ LEAST(attempts + 1, 8))` seconds. -/
def retry (now id : ℕ) (kind : DeliveryKind) (r : DeliveryRow) : DeliveryRow :=
  if isJob id kind r then
    { r with
      attempts := min (r.attempts + 1) 30
      nextAttemptAt := now + 1000 * min 300 (2 ^ min (r.attempts + 1) 8) }
  else r

/-- `ORDER BY next_attempt_at, created_at`. -/
def comesBefore (a b : DeliveryRow) : Bool :=
  decide (a.nextAttemptAt < b.nextAttemptAt) ||
    decide (a.nextAttemptAt = b.nextAttemptAt) && decide (a.createdAt < b.createdAt)

/-- `FOR UPDATE SKIP LOCKED LIMIT 1`: the row is due, unlocked, and no such row comes before it. -/
def isNext (p now : ℕ) (kind : Option DeliveryKind) (r : DeliveryRow) (s : Fanout) : Bool :=
  let eligible := fun r : DeliveryRow => decide (r.nextAttemptAt ≤ now) && kind.all (fun k => decide (r.kind = k)) &&
    s.locks.free p (.job r.messageId r.kind)
  s.outbox.contains r && eligible r && s.outbox.all fun t => !(eligible t && comesBefore t r)

end Fanout

inductive FanoutCall
  | idle
  /-- `completeClaim` has written the status -/
  | updated (id : ℕ) (m : OutboundMessage)
  /-- and queued the fan-out, unless a row was there -/
  | enqueued (id : ℕ) (m : OutboundMessage) (row : Option DeliveryRow)
  | held (job : DeliveryRow)
  | read (job : DeliveryRow) (m : Option OutboundMessage) (seen : ℕ)
  | delivered (job : DeliveryRow)
  | failed (job : DeliveryRow)
  | deleted (job : DeliveryRow)

inductive FanoutAction
  | complete (c : ClaimedIntent) (result : ProviderSendResult)
  | enqueue (now : ℕ)
  | claimJob (now : ℕ) (kind : Option DeliveryKind) (job : DeliveryRow)
  | readMessage
  | deliver
  /-- a statement of `deliver`, or the broadcast, throws -/
  | throw
  | delete
  | commit (now : ℕ)
  | rollback

/-- `completeClaim` up to the message: one that announces nothing ends here. -/
def startCompletion (p : ℕ) (c : ClaimedIntent) (result : ProviderSendResult) (s : Fanout) :
    Option (Fanout × FanoutCall) :=
  c.messageId.bind fun id => (s.messages id).bind fun m => (s.lock p (.message id)).map fun s =>
    if announces c result then (s, .updated id (resultMessage c result m))
    else ((s.setMessage id (resultMessage c result m)).finish p, .idle)

/-- `enqueueOutboundRealtimeFanout`. -/
def enqueueOutboundRealtimeFanout (p now id : ℕ) (m : OutboundMessage) (s : Fanout) : Option (Fanout × FanoutCall) :=
  if s.locks.free p (.key id .realtime) then
    if s.queued id .realtime then some ({ s with dropped := (p, id) :: s.dropped }, .enqueued id m none)
    else (s.lock p (.key id .realtime)).map fun s => (s, .enqueued id m (some ⟨id, .realtime, 0, now, now⟩))
  else none

/-- The statement of `deliver` that reads the message. -/
def readMessage (p : ℕ) (job : DeliveryRow) (s : Fanout) : Fanout × FanoutCall :=
  ({ s with reading := if job.kind = .realtime then (p, job.messageId) :: s.reading else s.reading },
    .read job (s.messages job.messageId) (s.changes job.messageId))

/-- The rest of `deliver`: a message that is gone or deleted is not announced. -/
def announce (job : DeliveryRow) (m : Option OutboundMessage) (seen : ℕ) (s : Fanout) : Fanout :=
  match m with
  | none => s
  | some m =>
    if m.deletedBySender then s
    else if job.kind = .realtime then { s with broadcasts := ⟨job.messageId, m.status, seen⟩ :: s.broadcasts }
    else s

def commitCompletion (p id : ℕ) (m : OutboundMessage) (row : Option DeliveryRow) (s : Fanout) : Fanout :=
  ({ s.change id m with outbox := s.outbox ++ row.toList }).finish p

def commitDelete (p : ℕ) (job : DeliveryRow) (s : Fanout) : Fanout :=
  ({ s with outbox := s.outbox.filter fun r => !Fanout.isJob job.messageId job.kind r }).finish p

def commitRetry (p now : ℕ) (job : DeliveryRow) (s : Fanout) : Fanout :=
  ({ s with outbox := s.outbox.map (Fanout.retry now job.messageId job.kind) }).finish p

def fanoutAct (p : ℕ) (s : Fanout) : FanoutCall → FanoutAction → Option (Fanout × FanoutCall)
  | .idle, .complete c result => startCompletion p c result s
  | .updated id m, .enqueue now => enqueueOutboundRealtimeFanout p now id m s
  | .enqueued id m row, .commit _ => some (commitCompletion p id m row s, .idle)
  | .idle, .claimJob now kind job =>
    if s.isNext p now kind job then (s.lock p (.job job.messageId job.kind)).map fun s => (s, .held job) else none
  | .held job, .readMessage => some (readMessage p job s)
  | .read job m seen, .deliver => some (announce job m seen s, .delivered job)
  | .held job, .throw | .read job _ _, .throw => some (s.stopReading p, .failed job)
  | .failed job, .commit now => some (commitRetry p now job s, .idle)
  | .delivered job, .delete => (s.lock p (.key job.messageId job.kind)).map fun s => (s, .deleted job)
  | .deleted job, .commit _ => some (commitDelete p job s, .idle)
  | .idle, .rollback => none
  | _, .rollback => some (s.finish p, .idle)
  | _, _ => none

/-- A message is stored with its fan-out: a push goes with what comes in. -/
structure StoredMessage where
  id : ℕ
  message : OutboundMessage
  inbound : Bool
  now : ℕ

def StoredMessage.fanout (e : StoredMessage) : List DeliveryRow :=
  ⟨e.id, .realtime, 0, e.now, e.now⟩ :: if e.inbound then [⟨e.id, .push, 0, e.now, e.now⟩] else []

def storeWithFanout (e : StoredMessage) (s : Fanout) : Option Fanout :=
  if s.messages e.id = none then some { s.setMessage e.id e.message with outbox := s.outbox ++ e.fanout } else none

def fanoutSystem : Machine Fanout FanoutCall FanoutAction StoredMessage where
  act := fanoutAct
  env := storeWithFanout

end TeamInbox.Channels
