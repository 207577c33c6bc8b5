import TeamInbox.Channels.TelegramTransport

/-!
# TeamInbox.Channels.LinkedDevice — sending through the worker of a linked device

`LinkedDeviceNatsTransport` puts the message under a pending id and enqueues a command for the worker in one
transaction.  From then on the events of the worker write the same row: confirmations, receipts and failures go
through the handlers of `TeamInbox.Messages.Handlers`, applied to the row once it belongs to a connection.
-/

namespace TeamInbox.Channels

open TeamInbox.Lib
open TeamInbox.Messages (MessageStatus MessageRow MessageAction SendOutcome givenId handle)

/-! ### The transport -/

/-- The contact and the connection of the conversation. -/
structure LinkedTarget where
  contactJid : Option String
  connectionId : ℕ
  connected : Bool

/-- What `buildSendMessageCommand` is given. -/
structure SendCommandInput where
  sessionId : String
  jid : String
  content : String
  messageType : String
  userId : String
  pendingMessageId : String
  mediaUrl : Option String
  replyTo : Option String

inductive EnqueueOutcome
  | committed
  /-- committed, but the answer of the database does not arrive -/
  | lost
  | failed
  deriving DecidableEq

inductive LinkedOp
  | readTarget
  | activeSession (connectionId : ℕ)
  | buildCommand (input : SendCommandInput)
  | enqueue (connectionId : ℕ) (pendingMessageId : String)

@[reducible] def LinkedOp.Resp : LinkedOp → Type
  | .readTarget => Except String (Option LinkedTarget)
  | .activeSession _ => Except String String
  | .buildCommand _ => Except String Unit
  | .enqueue _ _ => EnqueueOutcome

abbrev LinkedProc (α : Type) := Proc LinkedOp LinkedOp.Resp String α

def legacyMessageTypes : List String :=
  ["text", "image", "video", "audio", "document", "sticker", "location", "contact", "reaction", "template"]

def legacyMessageType (value : String) : String := if legacyMessageTypes.contains value then value else "text"

def firstStorageUri (value : Js .value) : Option String :=
  (firstAttachment value).bind fun attachment => stringValue (field "storageUri" attachment)

def pendingProviderId (messageId : ℕ) : String := "pending_" ++ toString messageId

def connectionUnavailable : ProviderSendResult :=
  .failure .transient "linked_device_connection_unavailable" (some 5000) none

def senderMissing : ProviderSendResult := .failure .permanent "linked_device_sender_missing" none none

def handoffUnknown : ProviderSendResult := .failure .uncertain "linked_device_handoff_outcome_unknown" none none

def handOver (connectionId : ℕ) (input : SendCommandInput) (providerRequestId : String) :
    LinkedProc ProviderSendResult :=
  .act (.buildCommand input) fun built => (Proc.ofExcept built).bind fun _ =>
    .act (.enqueue connectionId input.pendingMessageId) fun outcome =>
      match outcome with
      | .committed => .done (.success false (some providerRequestId) none none)
      | .lost | .failed => .fail "the transaction failed"

def linkedBody (c : ClaimedIntent) : LinkedProc ProviderSendResult :=
  .act .readTarget fun read => (Proc.ofExcept read).bind fun target =>
    match target, target.bind fun t => givenId t.contactJid, c.messageId with
    | some t, some jid, some messageId =>
      if t.connected = false then .done connectionUnavailable
      else .act (.activeSession t.connectionId) fun session => (Proc.ofExcept session).bind fun sessionId =>
        let payload := c.normalizedPayload
        match givenId (stringValue (field "sentByUserId" payload)) with
        | none => .done senderMissing
        | some sentByUserId =>
          handOver t.connectionId
            { sessionId := sessionId
              jid := jid
              content := (stringValue (field "textContent" payload)).getD ""
              messageType := legacyMessageType ((stringValue (field "messageType" payload)).getD "text")
              userId := sentByUserId
              pendingMessageId := pendingProviderId messageId
              mediaUrl := firstStorageUri (field "attachments" payload)
              replyTo := stringValue (field "replyToExternalMessageId" payload) }
            c.id
    | _, _, _ => .done connectionUnavailable

def linkedSend (c : ClaimedIntent) : LinkedProc ProviderSendResult :=
  (linkedBody c).attempt.bind fun
    | .ok result => .done result
    | .error _ => .done handoffUnknown

def linkedPerform (_operation : String) (_c : ClaimedIntent) : LinkedProc ProviderActionResult :=
  .done (.failure .unsupported "neutral_action_not_wired" none)

def enqueueCommand (connectionId : ℕ) (pendingMessageId : String) (m : OutboundMessage) : OutboundMessage :=
  { m with
    messageId := some pendingMessageId
    connection := some connectionId }

/-- The transaction of `enqueue`; the commands that have been enqueued are kept. -/
def linkedExec : (op : LinkedOp) → op.Resp → Option OutboundMessage × List String → Option OutboundMessage × List String
  | .enqueue connectionId pendingMessageId, .committed, (some m, commands)
  | .enqueue connectionId pendingMessageId, .lost, (some m, commands) =>
    (some (enqueueCommand connectionId pendingMessageId m), pendingMessageId :: commands)
  | _, _, s => s

def linkedAdapter : ChannelAdapter LinkedOp LinkedOp.Resp (List String) where
  send := linkedSend
  perform := linkedPerform
  exec := linkedExec

/-! ### Other writers of the message -/

/-- The `CASE` of `applyDeliveryUpdate`; a status it does not know leaves the row alone. -/
def deliveredStatus (reported : Option MessageStatus) (status : MessageStatus) : MessageStatus :=
  match reported with
  | some .read => .read
  | some .delivered => if status = .pending ∨ status = .sent then .delivered else status
  | some .sent => if status = .pending then .sent else status
  | some .failed => if status = .pending then .failed else status
  | some .pending | none => status

/-- `applyDeliveryUpdate`, which finds the message by its external id. -/
def applyDeliveryUpdate (scope externalId : String) (reported : Option MessageStatus) (m : OutboundMessage) :
    OutboundMessage :=
  if m.externalIdentityScope = some scope ∧ m.externalMessageId = some externalId then
    { m with status := deliveredStatus reported m.status }
  else m

def OutboundMessage.legacyRow (m : OutboundMessage) : Option MessageRow :=
  if m.connection.isSome then m.messageId.map fun messageId => ⟨m.id, messageId, true, some m.status, m.metadata⟩ else none

def OutboundMessage.ofLegacy (m : OutboundMessage) (r : MessageRow) : OutboundMessage :=
  { m with
    messageId := some r.messageId
    status := r.status.getD m.status
    metadata := r.metadata }

def legacyEvent (a : MessageAction) (m : OutboundMessage) : OutboundMessage :=
  match m.legacyRow with
  | none => m
  | some r =>
    match handle ⟨[r], [], []⟩ a with
    | .ok s => (s.rows.head?.map m.ofLegacy).getD m
    | .error _ => m

inductive NeutralEvent
  | deliveryUpdate (scope externalId : String) (reported : Option MessageStatus)
  deriving DecidableEq

/-- What writes a message of a Telegram account. -/
def neutralOutside : NeutralEvent → Option OutboundMessage × Unit → Option (Option OutboundMessage × Unit)
  | .deliveryUpdate scope externalId reported, (message, rest) =>
    some (message.map (applyDeliveryUpdate scope externalId reported), rest)

inductive LinkedEvent
  | deliveryUpdate (scope externalId : String) (reported : Option MessageStatus)
  | confirmation (pendingMessageId messageId : String)
  | receipt (messageId type : String) (pendingMessageId : Option String)
  | sendFailed (pendingMessageId : String) (outcome : SendOutcome) (messageId : Option String) (reason : String)
  /-- the mirror of the legacy message gives the row its external id -/
  | mirrored (scope externalId : String)
  deriving DecidableEq

/-- What writes a message of a linked device; the worker has something to report of a command only. -/
def linkedOutside : LinkedEvent → Option OutboundMessage × List String → Option (Option OutboundMessage × List String)
  | .deliveryUpdate scope externalId reported, (message, commands) =>
    some (message.map (applyDeliveryUpdate scope externalId reported), commands)
  | .confirmation pendingMessageId messageId, (message, commands) =>
    if pendingMessageId ∈ commands then
      some (message.map (legacyEvent (.confirmation pendingMessageId messageId)), commands)
    else none
  | .receipt messageId type pendingMessageId, (message, commands) =>
    if commands ≠ [] then some (message.map (legacyEvent (.receipt messageId type pendingMessageId)), commands) else none
  | .sendFailed pendingMessageId outcome messageId reason, (message, commands) =>
    if pendingMessageId ∈ commands then
      some (message.map (legacyEvent (.sendFailed pendingMessageId outcome messageId reason)), commands)
    else none
  | .mirrored scope externalId, (message, commands) =>
    if commands ≠ [] then
      some (message.map fun m =>
        { m with
          externalMessageId := some externalId
          externalIdentityScope := some scope }, commands)
    else none

end TeamInbox.Channels
