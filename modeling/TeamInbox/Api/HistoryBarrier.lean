import TeamInbox.Lib.Calls

/-!
# TeamInbox.Api.HistoryBarrier — history markers wait for the history before them

The outbox of a worker connection keeps history events until the API has applied them.  A handler of an event
asks the gate (`canApplyHistoryBarrier`), processes the event and deletes its row; consumers get events from the
broker, any number of times, and drains read markers from the outbox.  Every statement is a step of its own, and
any of them may fail.
-/

namespace TeamInbox.Api

open TeamInbox.Lib

inductive EventSubject
  | historyMessage
  | historyContact
  | contact
  | syncStatus
  | historySyncPage
  | other
  deriving DecidableEq

def EventSubject.isHistory : EventSubject → Bool
  | .historyMessage | .historyContact => true
  | _ => false

/-- What of an event decides how it is handled; `completed` is the status of a `syncStatus`. -/
structure HistoryEvent where
  eventId : Option ℕ
  subject : EventSubject
  completed : Bool
  deriving DecidableEq

def isHistoryBarrier (e : HistoryEvent) : Bool :=
  decide (e.subject = .historySyncPage) || decide (e.subject = .syncStatus) && e.completed

/-- A row of `worker_event_outbox`. -/
structure OutboxRow where
  eventId : ℕ
  eventOrder : ℕ
  subject : EventSubject
  completed : Bool
  published : Bool
  deriving DecidableEq

namespace OutboxRow

def event (r : OutboxRow) : HistoryEvent := ⟨some r.eventId, r.subject, r.completed⟩

def unpublished (r : OutboxRow) : OutboxRow := { r with published := false }

end OutboxRow

/-- The outbox of one connection, and whether its session has ended. -/
structure HistoryOutbox where
  rows : List OutboxRow
  nextOrder : ℕ
  ended : Bool
  saved : List OutboxRow
  /-- events whose effects have been applied -/
  applied : List ℕ

namespace HistoryOutbox

def empty : HistoryOutbox := ⟨[], 0, false, [], []⟩

/-- A history row before `order` is still there. -/
def waiting (s : HistoryOutbox) (order : ℕ) : Bool :=
  s.rows.any fun earlier => decide (earlier.eventOrder < order) && earlier.subject.isHistory

def canApplyHistoryBarrier (s : HistoryOutbox) (e : HistoryEvent) : Bool :=
  match e.eventId with
  | none => true
  | some id =>
    if isHistoryBarrier e then
      (s.rows.any fun r => decide (r.eventId = id)) &&
        !s.rows.any fun marker => decide (marker.eventId = id) && s.waiting marker.eventOrder
    else true

def acknowledgeAppliedHistory (s : HistoryOutbox) (e : HistoryEvent) : HistoryOutbox :=
  match e.eventId with
  | none => s
  | some id => if e.subject = .other then s else { s with rows := s.rows.filter fun r => decide (r.eventId ≠ id) }

/-- What a drain goes through; the rows stand in the order of their `eventOrder`. -/
def drainHistoryBarriers (s : HistoryOutbox) : List HistoryEvent :=
  ((s.rows.filter fun marker => marker.published &&
    (decide (marker.subject = .syncStatus) || decide (marker.subject = .historySyncPage)) &&
    !s.waiting marker.eventOrder).take 100).map (·.event)

/-- `SavePendingEvent`. -/
def savePendingEvent (s : HistoryOutbox) (id : ℕ) (subject : EventSubject) (completed : Bool) : HistoryOutbox :=
  let r : OutboxRow := ⟨id, s.nextOrder, subject, completed, false⟩
  { s with
    rows := s.rows ++ [r]
    nextOrder := s.nextOrder + 1
    saved := s.saved ++ [r] }

/-- The subjects that `MarkEventPublished` retains. -/
def retained (subject : EventSubject) : Bool :=
  subject.isHistory || decide (subject = .syncStatus) || decide (subject = .historySyncPage)

/-- `MarkEventPublished`. -/
def markEventPublished (s : HistoryOutbox) (id : ℕ) : HistoryOutbox :=
  { s with rows := (s.rows.filter fun r => decide (r.eventId ≠ id) || retained r.subject).map fun r =>
      if r.eventId = id then { r with published := true } else r }

end HistoryOutbox

/-- Where a handler stands; a drain has the `rest` of its markers still to handle. -/
inductive HistoryHandler
  | idle
  | received (e : HistoryEvent) (rest : List HistoryEvent)
  | admitted (e : HistoryEvent) (rest : List HistoryEvent)
  | resolved (e : HistoryEvent) (rest : List HistoryEvent)
  /-- applied, or dropped because the session has ended -/
  | processed (e : HistoryEvent) (rest : List HistoryEvent)
  deriving DecidableEq

def HistoryHandler.next : List HistoryEvent → HistoryHandler
  | [] => .idle
  | e :: rest => .received e rest

inductive HandlerAction
  | deliver (e : HistoryEvent)
  | drain
  | proceed
  /-- the handler throws; a drain goes on with the next marker -/
  | fail
  | crash
  deriving DecidableEq

inductive WorkerAction
  | save (id : ℕ) (subject : EventSubject) (completed : Bool)
  | publish (id : ℕ)
  | endSession
  deriving DecidableEq

/-- `handleWhatsAppEvent`, and the drain that calls it. -/
def handlerAct (s : HistoryOutbox) : HistoryHandler → HandlerAction → Option (HistoryOutbox × HistoryHandler)
  | .idle, .deliver e =>
    if e.eventId = none ∨ e ∈ s.saved.map (·.event) then some (s, .received e []) else none
  | .idle, .drain => some (s, .next s.drainHistoryBarriers)
  | .received e rest, .proceed =>
    some (s, if s.canApplyHistoryBarrier e then .admitted e rest else .next rest)
  | .admitted e rest, .proceed => some (s, if s.ended then .processed e rest else .resolved e rest)
  | .resolved e rest, .proceed => some ({ s with applied := e.eventId.toList ++ s.applied }, .processed e rest)
  | .processed e rest, .proceed => some (s.acknowledgeAppliedHistory e, .next rest)
  | .received _ rest, .fail | .admitted _ rest, .fail | .resolved _ rest, .fail | .processed _ rest, .fail =>
    some (s, .next rest)
  | _, .crash => some (s, .idle)
  | _, _ => none

def workerAct (s : HistoryOutbox) : WorkerAction → Option HistoryOutbox
  | .save id subject completed =>
    if id ∈ s.saved.map (·.eventId) then none else some (s.savePendingEvent id subject completed)
  | .publish id => some (s.markEventPublished id)
  | .endSession => some { s with ended := true }

def historySystem : Machine HistoryOutbox HistoryHandler HandlerAction WorkerAction where
  act := fun _ s x a => handlerAct s x a
  env := fun e s => workerAct s e

end TeamInbox.Api
