import TeamInbox.Lib.Proc
import TeamInbox.Messages.Handlers
import TeamInbox.Channels.EventDigest

/-!
# TeamInbox.Channels.Outbound — the dispatch of an outbound intent

Any number of dispatchers share one row of `outbound_message_intents`.  A dispatcher claims the row under a fresh
lease token, checks the authorization, calls the adapter and completes the claim; each of these is a step of its own,
and the adapter is a procedure whose operations are steps too.  Between two steps other dispatchers, the recovery of
expired leases and whatever else writes the message may come, and a dispatcher may stop at any point.

For the record, a state keeps the calls of the adapter with what became of them, the operations adapters have
performed and the dispatcher that has claimed last.
-/

namespace TeamInbox.Channels

open TeamInbox.Lib
open TeamInbox.Messages (MessageStatus Metadata givenId)

/-! ### Rows -/

inductive IntentStatus
  | pending
  | dispatching
  | handedOff
  | confirmed
  | failed
  | uncertain
  deriving DecidableEq

def IntentStatus.final : IntentStatus → Bool
  | .pending | .dispatching => false
  | .handedOff | .confirmed | .failed | .uncertain => true

inductive Operation
  | send
  | initiate
  /-- `action:name` -/
  | action (name : String)
  deriving DecidableEq

def Operation.isAction : Operation → Bool
  | .action _ => true
  | _ => false

/-- A row of `outbound_message_intents`. -/
structure IntentRow where
  id : String
  operation : Operation
  normalizedPayload : Js .object
  status : IntentStatus
  attempts : ℕ
  nextAttemptAt : ℕ
  leaseToken : Option ℕ
  leaseExpiresAt : Option ℕ
  providerRequestId : Option String
  lastErrorCode : Option String

/-- The row of `messages` that is sent. -/
structure OutboundMessage where
  id : ℕ
  status : MessageStatus
  messageId : Option String
  externalMessageId : Option String
  externalIdentityScope : Option String
  connection : Option ℕ
  metadata : Option Metadata
  textContent : String
  deletedBySender : Bool

/-! ### What an adapter answers -/

inductive FailureOutcome
  | transient
  | permanent
  | uncertain
  deriving DecidableEq

inductive ProviderSendResult
  | success (confirmed : Bool) (providerRequestId externalMessageId externalIdentityScope : Option String)
  | failure (outcome : FailureOutcome) (errorCode : String) (retryAfterMs : Option ℕ) (providerRequestId : Option String)
  deriving DecidableEq

def ProviderSendResult.transient : ProviderSendResult → Bool
  | .failure .transient _ _ _ => true
  | _ => false

inductive ActionFailure
  | unsupported
  | transient
  | permanent
  | uncertain
  deriving DecidableEq

inductive ProviderActionResult
  | success (confirmed : Bool) (providerRequestId : Option String)
  | failure (outcome : ActionFailure) (errorCode : String) (retryAfterMs : Option ℕ)
  deriving DecidableEq

def ProviderActionResult.asSend : ProviderActionResult → ProviderSendResult
  | .success confirmed providerRequestId => .success confirmed providerRequestId none none
  | .failure outcome errorCode retryAfterMs =>
    .failure (match outcome with
      | .transient => .transient
      | .uncertain => .uncertain
      | .unsupported | .permanent => .permanent) errorCode retryAfterMs none

/-- What a dispatcher knows of the intent it has claimed. -/
structure ClaimedIntent where
  id : String
  leaseToken : ℕ
  attempt : ℕ
  messageId : Option ℕ
  operation : Operation
  normalizedPayload : Js .object

/-- An adapter: its procedures, and what their operations do to the message and to the state `μ` it keeps. -/
structure ChannelAdapter (Op : Type) (Resp : Op → Type) (μ : Type) where
  send : ClaimedIntent → Proc Op Resp String ProviderSendResult
  perform : String → ClaimedIntent → Proc Op Resp String ProviderActionResult
  exec : (op : Op) → Resp op → Option OutboundMessage × μ → Option OutboundMessage × μ

/-! ### States -/

inductive Progress
  | begun
  | returned (r : ProviderSendResult)
  | recorded (r : ProviderSendResult)
  deriving DecidableEq

structure Invocation where
  token : ℕ
  progress : Progress
  deriving DecidableEq

structure Outbound (Op μ : Type) where
  intent : IntentRow
  message : Option OutboundMessage
  /-- a row for the message in `channel_message_delivery_outbox` -/
  announced : Bool
  rest : μ
  tokens : ℕ
  /-- calls of the adapter, the last one first -/
  invocations : List Invocation
  performed : List Op
  claimant : Option ℕ

inductive DispatchCall (Op : Type) (Resp : Op → Type)
  | idle
  | claimed (c : ClaimedIntent)
  | authorized (c : ClaimedIntent)
  | calling (c : ClaimedIntent) (program : Proc Op Resp String ProviderSendResult)
  | completing (c : ClaimedIntent) (result : ProviderSendResult)

inductive DispatchAction (Op : Type) (Resp : Op → Type)
  | claim (now : ℕ)
  | authorize (authorized : Bool)
  /-- the capabilities are resolved and the adapter is looked up -/
  | invoke (registered outboundInitiation : Bool)
  /-- the next operation of the adapter, as `answers` says -/
  | perform (answers : ∀ op, Resp op)
  | answer
  | complete (now : ℕ)
  /-- a statement fails, or the process ends -/
  | crash

inductive OutboundEvent (E : Type)
  | recover (now : ℕ)
  | outside (e : E)

section Dispatch

variable {Op : Type} {Resp : Op → Type} {μ E : Type}

def leaseMs : ℕ := 30000

/-- The claiming transaction of `dispatchNextChannelOutbound`. -/
def claimIntent (now p : ℕ) (s : Outbound Op μ) : Option (Outbound Op μ × ClaimedIntent) :=
  if s.intent.status = .pending ∧ s.intent.nextAttemptAt ≤ now then
    some ({ s with
      intent := { s.intent with
        status := .dispatching
        leaseToken := some s.tokens
        leaseExpiresAt := some (now + leaseMs)
        attempts := s.intent.attempts + 1 }
      tokens := s.tokens + 1
      claimant := some p },
      ⟨s.intent.id, s.tokens, s.intent.attempts + 1, s.message.map (·.id), s.intent.operation,
        s.intent.normalizedPayload⟩)
  else none

def intentActorUserId (normalizedPayload : Js .object) : Option String :=
  match field "actorUserId" normalizedPayload with
  | .string actorUserId => givenId (some actorUserId)
  | _ => none

/-- `isClaimStillAuthorized`; `authorized` is what the tables say of the actor. -/
def isClaimStillAuthorized (c : ClaimedIntent) (authorized : Bool) : Bool :=
  (intentActorUserId c.normalizedPayload).isSome && authorized

def authorizationRevoked : ProviderSendResult :=
  .failure .permanent "authorization_or_resource_state_revoked" none none

def initiationUnsupported : ProviderSendResult := .failure .permanent "outbound_initiation_unsupported" none none

def adapterOutcomeUnknown : ProviderSendResult := .failure .uncertain "adapter_outcome_unknown" none none

/-- `send` or `perform`. -/
def ChannelAdapter.call (adapter : ChannelAdapter Op Resp μ) (c : ClaimedIntent) :
    Proc Op Resp String ProviderSendResult :=
  match c.operation with
  | .action name => (adapter.perform name c).bind fun r => .done r.asSend
  | .send | .initiate => adapter.send c

def setProgress (token : ℕ) (progress : Progress) (i : Invocation) : Invocation :=
  if i.token = token then { i with progress := progress } else i

def completeMessage (c : ClaimedIntent) (confirmed : Bool) (externalMessageId externalIdentityScope : Option String)
    (m : OutboundMessage) : OutboundMessage :=
  match c.operation with
  | .action name =>
    if confirmed ∧ name = "delete" then { m with deletedBySender := true }
    else if confirmed ∧ name = "edit" then
      match field "textContent" c.normalizedPayload with
      | .string textContent => { m with textContent := textContent }
      | _ => m
    else m
  | .send | .initiate =>
    { m with
      status := if confirmed then .sent else .pending
      messageId := (givenId externalMessageId).or m.messageId
      externalMessageId := (givenId externalMessageId).or m.externalMessageId
      externalIdentityScope := (givenId externalIdentityScope).or m.externalIdentityScope }

/-- The wait before the next attempt, in milliseconds. -/
def outboundRetryDelay (retryAfterMs : Option ℕ) (attempts : ℕ) : ℕ :=
  retryAfterMs.getD (min 900000 (5000 * 2 ^ min attempts 8))

def IntentRow.complete (r : IntentRow) (now : ℕ) : ProviderSendResult → IntentRow
  | .success confirmed providerRequestId _ _ =>
    { r with
      status := if confirmed then .confirmed else .handedOff
      leaseToken := none
      leaseExpiresAt := none
      providerRequestId := providerRequestId
      lastErrorCode := none }
  | .failure outcome errorCode retryAfterMs providerRequestId =>
    { r with
      status := match outcome with
        | .transient => .pending
        | .uncertain => .uncertain
        | .permanent => .failed
      leaseToken := none
      leaseExpiresAt := none
      providerRequestId := providerRequestId
      nextAttemptAt := if outcome = .transient then now + outboundRetryDelay retryAfterMs r.attempts else now
      lastErrorCode := some errorCode }

def resultMessage (c : ClaimedIntent) : ProviderSendResult → OutboundMessage → OutboundMessage
  | .success confirmed _ externalMessageId externalIdentityScope, m =>
    completeMessage c confirmed externalMessageId externalIdentityScope m
  | .failure outcome _ _ _, m =>
    if outcome = .permanent ∧ c.operation.isAction = false then { m with status := .failed } else m

/-- The result calls for a new fan-out of the message. -/
def announces (c : ClaimedIntent) : ProviderSendResult → Bool
  | .success _ _ _ _ => !c.operation.isAction
  | .failure outcome _ _ _ => decide (outcome = .permanent) && !c.operation.isAction

/-- The holder of the token is the one whose result counts. -/
def fenced (s : Outbound Op μ) (c : ClaimedIntent) : Prop :=
  s.intent.status = .dispatching ∧ s.intent.leaseToken = some c.leaseToken

instance (s : Outbound Op μ) (c : ClaimedIntent) : Decidable (fenced s c) :=
  inferInstanceAs (Decidable (s.intent.status = .dispatching ∧ s.intent.leaseToken = some c.leaseToken))

def completeClaim (now : ℕ) (c : ClaimedIntent) (result : ProviderSendResult) (s : Outbound Op μ) : Outbound Op μ :=
  if fenced s c then
    { s with
      intent := s.intent.complete now result
      message := s.message.map (resultMessage c result)
      announced := s.announced || s.message.isSome && announces c result
      invocations := s.invocations.map (setProgress c.leaseToken (.recorded result)) }
  else s

def recoverExpiredLeases (now : ℕ) (s : Outbound Op μ) : Outbound Op μ :=
  if s.intent.status = .dispatching ∧ s.intent.leaseExpiresAt.any (· < now) then
    { s with
      intent := { s.intent with
        status := .uncertain
        leaseToken := none
        leaseExpiresAt := none
        lastErrorCode := some "dispatch_lease_expired_outcome_unknown" } }
  else s

def Outbound.returned (s : Outbound Op μ) (c : ClaimedIntent) (result : ProviderSendResult) : Outbound Op μ :=
  { s with invocations := s.invocations.map (setProgress c.leaseToken (.returned result)) }

def invokeAdapter (adapter : ChannelAdapter Op Resp μ) (c : ClaimedIntent) (registered outboundInitiation : Bool)
    (s : Outbound Op μ) : Outbound Op μ × DispatchCall Op Resp :=
  if outboundInitiation = false ∧ c.operation = .initiate then (s, .completing c initiationUnsupported)
  else if registered = false then (s, .completing c adapterOutcomeUnknown)
  else ({ s with invocations := ⟨c.leaseToken, .begun⟩ :: s.invocations }, .calling c (adapter.call c))

def performNext (adapter : ChannelAdapter Op Resp μ) (c : ClaimedIntent) (answers : ∀ op, Resp op) (s : Outbound Op μ) :
    Proc Op Resp String ProviderSendResult → Option (Outbound Op μ × DispatchCall Op Resp)
  | .act op k =>
    let (message, rest) := adapter.exec op (answers op) (s.message, s.rest)
    some ({ s with message := message, rest := rest, performed := op :: s.performed }, .calling c (k (answers op)))
  | .done _ | .fail _ => none

/-- What the adapter returns; an exception leaves the outcome open. -/
def answerOf : Proc Op Resp String ProviderSendResult → Option ProviderSendResult
  | .done result => some result
  | .fail _ => some adapterOutcomeUnknown
  | .act _ _ => none

def dispatchAct (adapter : ChannelAdapter Op Resp μ) (p : ℕ) (s : Outbound Op μ) :
    DispatchCall Op Resp → DispatchAction Op Resp → Option (Outbound Op μ × DispatchCall Op Resp)
  | .idle, .claim now => (claimIntent now p s).map fun r => (r.1, .claimed r.2)
  | .claimed c, .authorize authorized =>
    some (s, if isClaimStillAuthorized c authorized then .authorized c else .completing c authorizationRevoked)
  | .authorized c, .invoke registered outboundInitiation =>
    some (invokeAdapter adapter c registered outboundInitiation s)
  | .calling c program, .perform answers => performNext adapter c answers s program
  | .calling c program, .answer => (answerOf program).map fun result => (s.returned c result, .completing c result)
  | .completing c result, .complete now => some (completeClaim now c result s, .idle)
  | _, .crash => some (s, .idle)
  | _, _ => none

/-- `outside` is what other services do to the message and to what the adapter keeps. -/
def outboundSystem (adapter : ChannelAdapter Op Resp μ)
    (outside : E → Option OutboundMessage × μ → Option (Option OutboundMessage × μ)) :
    Machine (Outbound Op μ) (DispatchCall Op Resp) (DispatchAction Op Resp) (OutboundEvent E) where
  act := dispatchAct adapter
  env := fun e s => match e with
    | .recover now => some (recoverExpiredLeases now s)
    | .outside e => (outside e (s.message, s.rest)).map fun r => { s with message := r.1, rest := r.2 }

end Dispatch

end TeamInbox.Channels
