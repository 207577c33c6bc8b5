import TeamInbox.Lib.Calls
import Mathlib.Data.String.Basic

/-!
# TeamInbox.Api.EventLoops — the consumer loops of the API

Three durable consumers share the events of the workers: `critical`, `history` and `transient`.  `handleMessage` decodes
a delivery, drops a presence or typing event that has expired, moves a record of the history that came on a legacy
subject to the history lane, and hands every other event to the handler; then it acknowledges.  An event that fails is
asked for again until its last delivery, which publishes it to the dead letters.

One event of one consumer.  The broker hands it out until it is acknowledged, terminated or delivered `maxDeliver`
times; every delivery is a call, and several may be in progress.  An acknowledgement that is sent may be lost, or throw.
-/

namespace TeamInbox.Api

open TeamInbox.Lib

inductive EventLoopName
  | critical
  | history
  | transient
  deriving DecidableEq

/-- `eventLoopConfig(name).tuning.maxDeliver`, which the consumer's configuration has as well. -/
def EventLoopName.maxDeliver : EventLoopName → ℕ
  | .critical => 10
  | .history => 10
  | .transient => 5

inductive WhatsAppEventType
  | qr
  | paired
  | connected
  | disconnected
  | loggedOut
  | message
  | receipt
  | sendConfirmation
  | sendFailed
  | status
  | contact
  | labels
  | catalogs
  | catalogProducts
  | profilePicture
  | messageRevoke
  | presence
  | typing
  | reaction
  | syncStatus
  | historySyncPage
  | downloadResponse
  | connectionStatus
  | commandResult
  | group
  | error
  deriving DecidableEq

/-- The envelope; of the payload only the mark of a message of the history. -/
structure WhatsAppEvent where
  type : WhatsAppEventType
  companyID : String
  connectionID : String
  isHistorySync : Bool
  deriving DecidableEq

/-- What the stream has stored; it counts its messages from one. -/
structure StreamMessage (δ : Type) where
  subject : String
  data : δ
  streamSequence : ℕ
  timestampNanos : ℕ
  counted : 0 < streamSequence

structure Republished (δ : Type) where
  subject : String
  data : δ
  msgID : Option String

structure DeadLetter (δ : Type) where
  sourceSubject : String
  deliveries : ℕ
  error : String
  payload : δ
  failedAt : ℕ

structure LoopState (δ : Type) where
  /-- the broker's record of the event -/
  delivered : ℕ
  acked : Bool
  termed : Bool
  /-- the deliveries in progress, by their number -/
  inProgress : List ℕ
  handled : ℕ
  history : List (Republished δ)
  deadLetters : List (DeadLetter δ)
  now : ℕ

variable {δ : Type}

def isExpiredEphemeralEvent (type : WhatsAppEventType) (publishedAtNanos nowMs : ℕ) : Bool :=
  let maxAgeMs : Option ℕ := match type with
    | .presence => some 60000
    | .typing => some 10000
    | _ => none
  maxAgeMs.any fun age => decide (0 < publishedAtNanos) && decide (publishedAtNanos + age * 1000000 < nowMs * 1000000)

def historyMessageEventSuffix : String := ".history_message"

def historyContactEventSuffix : String := ".history_contact"

def legacyHistorySubject (name : EventLoopName) (event : WhatsAppEvent) : Option String :=
  let base := "WHATSAPP.events." ++ event.companyID ++ "." ++ event.connectionID
  if name ≠ .critical then none
  else if event.type = .contact then some (base ++ historyContactEventSuffix)
  else if event.type = .message ∧ event.isHistorySync then some (base ++ historyMessageEventSuffix)
  else none

/-- The `msgID` of a record that is moved. -/
def legacyHistoryID (streamSequence : ℕ) : Option String :=
  if streamSequence = 0 then none else some ("legacy-history-" ++ toString streamSequence)

inductive Settling
  | arrives
  | lost
  | throws (error : String)
  deriving DecidableEq

inductive PublishResult
  | stored
  | unanswered (error : String)
  | refused (error : String)
  deriving DecidableEq

inductive HandlerResult
  | completes
  /-- `permanent` is a `PermanentEventError` -/
  | fails (permanent : Bool) (error : String)
  deriving DecidableEq

/-- Where delivery `n` is: at an `await`, or not begun. -/
inductive DeliveryStage
  | idle
  | received (n : ℕ)
  /-- the dead letter of an event that does not decode -/
  | rejecting (n : ℕ) (error : String)
  | moving (n : ℕ) (subject : String)
  | handling (n : ℕ)
  /-- the dead letter of an event that fails -/
  | failing (n : ℕ) (error : String)
  deriving DecidableEq

def DeliveryStage.delivery : DeliveryStage → Option ℕ
  | .idle => none
  | .received n | .rejecting n _ | .moving n _ | .handling n | .failing n _ => some n

inductive DeliveryAction
  | deliver
  | run (ack : Settling)
  /-- a publish ends; `settle` is what follows it, and `nak` what follows an invalid event's failure -/
  | publish (result : PublishResult) (settle nak : Settling)
  | handle (result : HandlerResult) (ack : Settling)
  | crash
  deriving DecidableEq

namespace LoopState

def ack (sent : Settling) (w : LoopState δ) : LoopState δ :=
  if sent = .arrives then { w with acked := true } else w

def term (sent : Settling) (w : LoopState δ) : LoopState δ :=
  if sent = .arrives then { w with termed := true } else w

/-- The delivery is over, whether or not it asks for another. -/
def close (n : ℕ) (w : LoopState δ) : LoopState δ := { w with inProgress := w.inProgress.erase n }

def publishDeadLetter (m : StreamMessage δ) (error : String) (deliveries : ℕ) (w : LoopState δ) : LoopState δ :=
  { w with deadLetters := ⟨m.subject, deliveries, error, m.data, w.now⟩ :: w.deadLetters }

def publishHistory (m : StreamMessage δ) (subject : String) (w : LoopState δ) : LoopState δ :=
  { w with history := ⟨subject, m.data, legacyHistoryID m.streamSequence⟩ :: w.history }

end LoopState

/-- The `catch` block; a `nak` changes nothing the broker would not do by itself. -/
def catchError (name : EventLoopName) (n : ℕ) (permanent : Bool) (error : String) (w : LoopState δ) :
    LoopState δ × DeliveryStage :=
  if permanent ∨ name.maxDeliver ≤ n then (w, .failing n error) else (w.close n, .idle)

/-- `msg.ack()` as the last statement of the `try` block. -/
def ackLast (name : EventLoopName) (n : ℕ) (w : LoopState δ) : Settling → LoopState δ × DeliveryStage
  | .throws error => catchError name n false error w
  | sent => ((w.ack sent).close n, .idle)

/-- `msg.nak()` after the dead letter of an invalid event has failed, inside the `try` block. -/
def nakInvalid (name : EventLoopName) (n : ℕ) (w : LoopState δ) : Settling → LoopState δ × DeliveryStage
  | .throws error => catchError name n false error w
  | _ => (w.close n, .idle)

section Loop

variable (parse : δ → Except String WhatsAppEvent) (name : EventLoopName) (m : StreamMessage δ)

/-- `handleMessage` up to its first `await`. -/
def handleMessage (n : ℕ) (ack : Settling) (w : LoopState δ) : LoopState δ × DeliveryStage :=
  match parse m.data with
  | .error error => (w, .rejecting n error)
  | .ok event =>
    if name = .transient ∧ isExpiredEphemeralEvent event.type m.timestampNanos w.now then ackLast name n w ack
    else match legacyHistorySubject name event with
      | some subject => (w, .moving n subject)
      | none => (w, .handling n)

def rejectInvalid (n : ℕ) (error : String) (w : LoopState δ) (settle nak : Settling) :
    PublishResult → LoopState δ × DeliveryStage
  | .stored =>
    let w := w.publishDeadLetter m error 1
    match settle with
    | .throws _ => nakInvalid name n w nak
    | sent => ((w.term sent).close n, .idle)
  | .unanswered _ => nakInvalid name n (w.publishDeadLetter m error 1) nak
  | .refused _ => nakInvalid name n w nak

def moveToHistory (n : ℕ) (subject : String) (w : LoopState δ) (ack : Settling) :
    PublishResult → LoopState δ × DeliveryStage
  | .stored => ackLast name n (w.publishHistory m subject) ack
  | .unanswered error => catchError name n false error (w.publishHistory m subject)
  | .refused error => catchError name n false error w

def handleEvent (n : ℕ) (w : LoopState δ) (ack : Settling) : HandlerResult → LoopState δ × DeliveryStage
  | .completes => ackLast name n { w with handled := w.handled + 1 } ack
  | .fails permanent error => catchError name n permanent error w

/-- What throws after the dead letter is stored is caught, and asks for another delivery. -/
def failEvent (n : ℕ) (error : String) (w : LoopState δ) (settle : Settling) :
    PublishResult → LoopState δ × DeliveryStage
  | .stored => (((w.publishDeadLetter m error n).term settle).close n, .idle)
  | .unanswered _ => ((w.publishDeadLetter m error n).close n, .idle)
  | .refused _ => (w.close n, .idle)

/-- The broker hands the event out as long as it may. -/
def deliver (w : LoopState δ) : Option (LoopState δ × DeliveryStage) :=
  if w.acked ∨ w.termed ∨ name.maxDeliver ≤ w.delivered then none
  else some
    ({ w with
        delivered := w.delivered + 1
        inProgress := (w.delivered + 1) :: w.inProgress }, .received (w.delivered + 1))

def loopAct (_ : ℕ) (w : LoopState δ) : DeliveryStage → DeliveryAction → Option (LoopState δ × DeliveryStage)
  | .idle, .deliver => deliver name w
  | .received n, .run ack => some (handleMessage parse name m n ack w)
  | .rejecting n error, .publish result settle nak => some (rejectInvalid name m n error w settle nak result)
  | .moving n subject, .publish result ack _ => some (moveToHistory name m n subject w ack result)
  | .handling n, .handle result ack => some (handleEvent name n w ack result)
  | .failing n error, .publish result settle _ => some (failEvent m n error w settle result)
  | .idle, .crash => none
  | x, .crash => some ((x.delivery.elim w w.close), .idle)
  | _, _ => none

/-- The replicas' loops and the broker; the environment is the clock. -/
def eventLoops : Machine (LoopState δ) DeliveryStage DeliveryAction ℕ where
  act := loopAct parse name m
  env ms w := some { w with now := w.now + ms }

end Loop

end TeamInbox.Api
