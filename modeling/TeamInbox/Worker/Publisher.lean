import TeamInbox.Lib.Proc
import TeamInbox.Api.ConnectionHandlers
import Mathlib.Data.List.Sort

/-!
# TeamInbox.Worker.Publisher — the event outbox of a worker

`publish` saves an event in the outbox of the connection and hands it to JetStream; what could not be
published stays in the outbox and `flushPendingEvents` replays it.  JetStream drops a message whose
identifier it has seen and delivers the others in the order of acceptance.  `StatusWorld` puts the
outbox, the stream and the API's application of the stream together.
-/

namespace TeamInbox.Worker

open TeamInbox.Lib
open TeamInbox.Api (ConnectionEvent StatusType TenantDb Admission Verdict SessionID)

abbrev EventID := String

/-! ### Data -/

inductive Subject
  | status
  | qr
  | presence
  | typing
  | historyMessage
  | historyContact
  | syncStatus
  | historySyncPage
  | other (name : String)
  deriving DecidableEq

def shouldPersistEventSubject : Subject → Bool
  | .qr | .presence | .typing => false
  | _ => true

/-- `MarkEventPublished` keeps rows of these subjects until the API has applied them. -/
def Subject.retained : Subject → Bool
  | .historyMessage | .historyContact | .syncStatus | .historySyncPage => true
  | _ => false

/-- `PendingEvent`; of the payload only a connection status is kept. -/
structure PendingEvent where
  id : EventID
  subject : Subject
  payload : Option ConnectionEvent
  deriving DecidableEq

/-- The event changes the stored status of its connection. -/
def PendingEvent.stores (e : PendingEvent) : Bool :=
  match e.payload with
  | some status => status.type.stores
  | none => false

/-- A row of `worker_event_outbox`. -/
structure OutboxRow where
  event : PendingEvent
  createdAt : ℕ
  publishedAt : Option ℕ
  deriving DecidableEq

inductive RuntimeStatus
  | connected
  | authenticated
  | disconnected
  deriving DecidableEq

/-! ### Operations -/

inductive PublisherOp
  /-- The identifier is drawn with the statement. -/
  | savePendingEvent (subject : Subject) (payload : Option ConnectionEvent)
  | listPendingEvents (limit : ℕ)
  | markEventPublished (id : EventID)
  | recordEventPublishFailure (id : EventID) (text : String)
  /-- `js.Publish`, with the message identifier if there is one. -/
  | jsPublish (event : PendingEvent) (msgID : Option EventID)
  | publishWorkerRuntimeStatus (status : RuntimeStatus)
  /-- `p.ctx.Err() != nil`. -/
  | contextDone

def PublisherOp.Resp : PublisherOp → Type
  | .savePendingEvent _ _ => Except String PendingEvent
  | .listPendingEvents _ => Except String (List PendingEvent)
  | .markEventPublished _ => Except String Unit
  | .recordEventPublishFailure _ _ => Except String Unit
  | .jsPublish _ _ => Except String Unit
  | .publishWorkerRuntimeStatus _ => Except String Unit
  | .contextDone => Bool

abbrev PublisherProc := Proc PublisherOp PublisherOp.Resp Empty

namespace PublisherOp

def perform (op : PublisherOp) : PublisherProc op.Resp := Proc.call op

def save (subject : Subject) (payload : Option ConnectionEvent) :
    PublisherProc (Except String PendingEvent) := perform (.savePendingEvent subject payload)

def list (limit : ℕ) : PublisherProc (Except String (List PendingEvent)) :=
  perform (.listPendingEvents limit)

def mark (id : EventID) : PublisherProc (Except String Unit) := perform (.markEventPublished id)

def recordFailure (id : EventID) (text : String) : PublisherProc (Except String Unit) :=
  perform (.recordEventPublishFailure id text)

def send (event : PendingEvent) (msgID : Option EventID) : PublisherProc (Except String Unit) :=
  perform (.jsPublish event msgID)

def runtime (status : RuntimeStatus) : PublisherProc (Except String Unit) :=
  perform (.publishWorkerRuntimeStatus status)

def done : PublisherProc Bool := perform .contextDone

end PublisherOp

/-! ### The publisher -/

def eventPublishMaxAttempts : ℕ := 5

def eventOutboxBatchSize : ℕ := 100

/-- `publishEventWithRetry`; the number says how many attempts are left. -/
def publishEventWithRetry (event : PendingEvent) (msgID : Option EventID) :
    ℕ → PublisherProc (Except String Unit)
  | 0 => pure (.error "failed to publish")
  | left + 1 => do
    match ← PublisherOp.send event msgID with
    | .ok _ => pure (.ok ())
    | .error e =>
      if left = 0 then pure (.error ("failed to publish: " ++ e))
      else publishEventWithRetry event msgID left

def publishPendingEvent (event : PendingEvent) : PublisherProc (Except String Unit) := do
  match ← publishEventWithRetry event (some event.id) eventPublishMaxAttempts with
  | .error e =>
    let _ ← PublisherOp.recordFailure event.id e
    pure (.error e)
  | .ok _ =>
    match ← PublisherOp.mark event.id with
    | .error e => pure (.error ("mark worker event " ++ event.id ++ " published: " ++ e))
    | .ok _ => pure (.ok ())

/-- The loop of `flushPendingEvents`. -/
def flushEach : List PendingEvent → PublisherProc Unit
  | [] => pure ()
  | event :: rest => do
    if ← PublisherOp.done then pure ()
    else do
      let _ ← publishPendingEvent event
      flushEach rest

def flushPendingEvents : PublisherProc Unit := do
  match ← PublisherOp.list eventOutboxBatchSize with
  | .error _ => pure ()
  | .ok events => flushEach events

def publish (subject : Subject) (payload : Option ConnectionEvent) :
    PublisherProc (Except String Unit) := do
  if shouldPersistEventSubject subject then
    match ← PublisherOp.save subject payload with
    | .error e => pure (.error ("persist worker event before publish: " ++ e))
    | .ok pending =>
      -- persistence is the success boundary: the flusher owns what could not be published
      let _ ← publishPendingEvent pending
      pure (.ok ())
  else publishEventWithRetry ⟨"", subject, payload⟩ none eventPublishMaxAttempts

/-- The negative edge goes out before the event. -/
def runtimeDisconnected (event : ConnectionEvent) : PublisherProc (Except String Unit) :=
  if event.type = .disconnected ∨ event.type = .loggedOut then PublisherOp.runtime .disconnected
  else pure (.ok ())

def runtimeConnected (event : ConnectionEvent) : PublisherProc (Except String Unit) :=
  match event.type with
  | .connected => do
    match ← PublisherOp.runtime .connected with
    | .error e => pure (.error e)
    | .ok _ => PublisherOp.runtime .authenticated
  | .paired => PublisherOp.runtime .authenticated
  | _ => pure (.ok ())

def publishConnectionStatus (event : ConnectionEvent) : PublisherProc (Except String Unit) := do
  let runtimeErr ← runtimeDisconnected event
  match ← publish .status (some event) with
  | .error e => pure (.error e)
  | .ok _ =>
    match runtimeErr with
    | .error e => pure (.error e)
    | .ok _ => runtimeConnected event

/-! ### Outbox, stream and API -/

structure StatusWorld where
  rows : List OutboxRow
  saved : List PendingEvent
  /-- What JetStream accepted, in order. -/
  stream : List PendingEvent
  /-- How much of the stream the API has applied. -/
  applied : ℕ
  db : TenantDb
  /-- How the API dealt with the applied events. -/
  verdicts : List (EventID × Verdict)

def StatusWorld.start (db : TenantDb) : StatusWorld := ⟨[], [], [], 0, db, []⟩

/-- What the scheduler supplies for an operation. -/
structure PublisherChoice where
  fault : Fault
  text : String
  id : EventID
  now : ℕ
  done : Bool

/-- `ORDER BY created_at ASC, event_id ASC`. -/
def OutboxRow.Before (r r' : OutboxRow) : Prop :=
  r.createdAt < r'.createdAt ∨ (r.createdAt = r'.createdAt ∧ r.event.id ≤ r'.event.id)

instance : DecidableRel OutboxRow.Before := fun r r' =>
  inferInstanceAs (Decidable (r.createdAt < r'.createdAt ∨ (_ ∧ r.event.id ≤ r'.event.id)))

namespace StatusWorld

/-- `SavePendingEvent`. -/
def save (w : StatusWorld) (event : PendingEvent) (now : ℕ) : StatusWorld :=
  { w with rows := w.rows ++ [⟨event, now, none⟩], saved := w.saved ++ [event] }

/-- `ListPendingEvents`. -/
def pending (w : StatusWorld) (limit : ℕ) : List PendingEvent :=
  (((w.rows.filter (·.publishedAt.isNone)).insertionSort OutboxRow.Before).take limit).map (·.event)

/-- `MarkEventPublished`. -/
def mark (w : StatusWorld) (id : EventID) (now : ℕ) : StatusWorld :=
  { w with rows := (w.rows.filter fun r => r.event.id ≠ id ∨ r.event.subject.retained).map fun r =>
      if r.event.id = id then { r with publishedAt := some now } else r }

/-- JetStream accepts a message unless it has seen its identifier. -/
def accept (w : StatusWorld) (event : PendingEvent) (msgID : Option EventID) : StatusWorld :=
  if ∃ id, msgID = some id ∧ ∃ e ∈ w.stream, e.id = id then w
  else { w with stream := w.stream ++ [event] }

end StatusWorld

def publisherExec (op : PublisherOp) (f : PublisherChoice) (w : StatusWorld) :
    Option (op.Resp × StatusWorld) :=
  match op with
  | .savePendingEvent subject payload =>
    -- a `uuid` that was drawn before is not drawn again
    if f.id ∈ w.saved.map (·.id) then none
    else some (f.fault.answer f.text (⟨f.id, subject, payload⟩ : PendingEvent) w
      (w.save ⟨f.id, subject, payload⟩ f.now))
  | .listPendingEvents limit => some (f.fault.answer f.text (w.pending limit) w w)
  | .markEventPublished id => some (f.fault.answer f.text () w (w.mark id f.now))
  | .recordEventPublishFailure _ _ => some (f.fault.answer f.text () w w)
  | .jsPublish event msgID => some (f.fault.answer f.text () w (w.accept event msgID))
  | .publishWorkerRuntimeStatus _ => some (f.fault.answer f.text () w w)
  | .contextDone => some (f.done, w)

inductive PublisherCall
  | connectionStatus (event : ConnectionEvent)
  /-- Another event that goes through the outbox. -/
  | event (subject : Subject)
  | flush

inductive StatusEnv
  /-- The worker dies with all its threads; the next one starts with a flush. -/
  | crash
  /-- The API handles the next event of the stream. -/
  | deliver (now : ℕ) (admission : Option Admission) (faults : List Fault)

section System

variable (trimLower : String → String) (sid : SessionID)

/-- The API applies the next event; a handler that throws leaves it to be delivered again. -/
def StatusWorld.deliver (w : StatusWorld) (now : ℕ) (admission : Option Admission)
    (faults : List Fault) : Option StatusWorld :=
  match w.stream[w.applied]? with
  | none => none
  | some ⟨id, _, none⟩ =>
    some { w with applied := w.applied + 1, verdicts := (id, .stored) :: w.verdicts }
  | some ⟨id, _, some status⟩ =>
    match (Api.processConnectionEvent trimLower now status sid admission).run ⟨w.db, faults⟩ with
    | (.ok verdict, s) =>
      some { w with applied := w.applied + 1, db := s.db, verdicts := (id, verdict) :: w.verdicts }
    | (.error _, s) => some { w with db := s.db }

def statusSystem : System PublisherOp PublisherOp.Resp Empty StatusWorld Unit PublisherChoice
    PublisherCall StatusEnv where
  exec _ op f w := publisherExec op f w
  start call w :=
    match call with
    | .connectionStatus event => some ((), (publishConnectionStatus event).bind fun _ => .done (), w)
    | .event subject =>
      if shouldPersistEventSubject subject then
        some ((), (publish subject none).bind fun _ => .done (), w)
      else none
    | .flush => some ((), flushPendingEvents, w)
  env e w :=
    match e with
    | .crash => some w
    | .deliver now admission faults => w.deliver trimLower sid now admission faults
  kills e _ :=
    match e with
    | .crash => true
    | .deliver _ _ _ => false

end System

end TeamInbox.Worker
