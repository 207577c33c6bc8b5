import TeamInbox.Lib.Proc
import TeamInbox.Worker.Ledger

/-!
# TeamInbox.Worker.SendCommand — one send command and its write-ahead intent

`handleSendCommand` may run any number of times for a command: a redelivery after a crash, a deferred
command retried by the scheduler, two worker generations at once.  Its only shared state is the ledger.
`BeforeSend` inserts an in-flight intent at the transport boundary, so that no second handler crosses
it; the handler that did records what became of its send.  Every statement, publication and transport
call is an operation of its own, and a crash may come between any two of them.
-/

namespace TeamInbox.Worker

open TeamInbox.Lib

/-! ### Data -/

inductive MessageType
  | text
  | image
  | video
  | audio
  | document
  | sticker
  | reaction
  | other (name : String)
  deriving DecidableEq

def MessageType.name : MessageType → String
  | .text => "text"
  | .image => "image"
  | .video => "video"
  | .audio => "audio"
  | .document => "document"
  | .sticker => "sticker"
  | .reaction => "reaction"
  | .other name => name

structure SendMessageCommand where
  commandID : CommandID
  messageID : String
  type : MessageType
  correlationID : String
  mediaAlbumID : String
  mediaAlbumIndex : Int
  mediaAlbumCount : Int
  mediaAlbumImageCount : Int
  mediaAlbumVideoCount : Int
  deriving DecidableEq

structure SendResponse where
  id : String
  timestamp : ℕ
  deriving DecidableEq

/-- `storedCommandResult`, the result column of a send command. -/
structure StoredCommandResult where
  pendingMessageID : String
  commandType : MessageType
  response : SendResponse
  correlationID : String
  failed : Bool
  errorMessage : String
  inFlight : Bool
  unknown : Bool
  whatsAppMessageID : String
  attempts : ℕ
  deriving DecidableEq

inductive CommandOutcome
  | confirmed
  | failed
  | unknown
  deriving DecidableEq

/-- The events the publisher sends for a send command. -/
inductive CommandEvent
  | sendConfirmation (pendingMessageID messageID : String) (timestamp : ℕ) (correlationID : String)
  | sendFailed (pendingMessageID reason correlationID : String)
  | sendUncertain (pendingMessageID messageID correlationID : String)
  | commandResult (commandType : String) (outcome : CommandOutcome) (error : String)
  deriving DecidableEq

def CommandEvent.outcome : CommandEvent → CommandOutcome
  | .sendConfirmation _ _ _ _ => .confirmed
  | .sendFailed _ _ _ => .failed
  | .sendUncertain _ _ _ => .unknown
  | .commandResult _ outcome _ => outcome

/-- The outcome a stored result stands for; an intent without a result is an unknown outcome. -/
def StoredCommandResult.outcome (r : StoredCommandResult) : CommandOutcome :=
  if r.inFlight || r.unknown then .unknown else if r.failed then .failed else .confirmed

/-- How `handleSendCommand` classifies an error of `executeSend`. -/
inductive SendErrorKind
  | plain
  /-- `errSendAlreadyStarted` -/
  | alreadyStarted
  /-- `UnknownSendOutcome` -/
  | unknownOutcome
  deriving DecidableEq

/-- Wrapping with `%w` extends the text and keeps the kind. -/
structure SendError where
  kind : SendErrorKind
  text : String
  deriving DecidableEq

def SendError.wrap (e : SendError) (context : String) : SendError :=
  { e with text := context ++ ": " ++ e.text }

/-! ### Operations -/

/-- What a transport call carries.  The manifest of an album goes out under the identifier of the
album, the message of the command under its stable identifier. -/
inductive SendPart
  | manifest
  | message
  deriving DecidableEq

/-- What happens before the transport boundary and may fail. -/
inductive Preparation
  | downloadCommandMedia
  | parseJID
  | createMessage
  deriving DecidableEq

inductive SendOp
  | getProcessedCommand (id : CommandID)
  | beginSendCommand (id : CommandID) (intent : StoredCommandResult)
  | saveProcessedCommand (id : CommandID) (result : StoredCommandResult)
  | markCommandEventPublished (id : CommandID)
  | publish (id : CommandID) (event : CommandEvent)
  | prepare (what : Preparation)
  /-- `client.SendMessage` is called … -/
  | sendStart (id : CommandID) (part : SendPart) (messageID : String)
  | sendReturn (id : CommandID) (part : SendPart)
  /-- The pause between two attempts; the answer says that the subscriber goes on. -/
  | pause

def SendOp.Resp : SendOp → Type
  | .getProcessedCommand _ => Except String (Option StoredCommandResult)
  | .beginSendCommand _ _ => Except String Bool
  | .saveProcessedCommand _ _ => Except String Unit
  | .markCommandEventPublished _ => Except String Unit
  | .publish _ _ => Except String Unit
  | .prepare _ => Except String Unit
  | .sendStart _ _ _ => Unit
  | .sendReturn _ _ => Except String SendResponse
  | .pause => Bool

/-- Go code returns its errors as values, so no procedure ends in an error of its own. -/
abbrev SendProc := Proc SendOp SendOp.Resp Empty

namespace SendOp

def perform (op : SendOp) : SendProc op.Resp := Proc.call op

def read (id : CommandID) : SendProc (Except String (Option StoredCommandResult)) :=
  perform (.getProcessedCommand id)

def begin (id : CommandID) (intent : StoredCommandResult) : SendProc (Except String Bool) :=
  perform (.beginSendCommand id intent)

def save (id : CommandID) (result : StoredCommandResult) : SendProc (Except String Unit) :=
  perform (.saveProcessedCommand id result)

def mark (id : CommandID) : SendProc (Except String Unit) :=
  perform (.markCommandEventPublished id)

def report (id : CommandID) (event : CommandEvent) : SendProc (Except String Unit) :=
  perform (.publish id event)

def ready (what : Preparation) : SendProc (Except String Unit) := perform (.prepare what)

def start (id : CommandID) (part : SendPart) (messageID : String) : SendProc Unit :=
  perform (.sendStart id part messageID)

def await (id : CommandID) (part : SendPart) : SendProc (Except String SendResponse) :=
  perform (.sendReturn id part)

def wait : SendProc Bool := perform .pause

end SendOp

inductive Settlement
  | ack
  | defer
  | term
  deriving DecidableEq

/-! ### The handler -/

section Handler

-- `CommandMessageID` of the connection
variable (stableID : CommandID → String)

/-- The event `publishStoredCommandResult` sends. -/
def StoredCommandResult.event (r : StoredCommandResult) : CommandEvent :=
  if r.inFlight || r.unknown then
    if r.commandType = .reaction then
      .commandResult r.commandType.name .unknown
        "Reaction delivery is unconfirmed. Check WhatsApp before repeating it."
    else .sendUncertain r.pendingMessageID r.whatsAppMessageID r.correlationID
  else if r.failed then
    if r.commandType = .reaction then .commandResult r.commandType.name .failed r.errorMessage
    else .sendFailed r.pendingMessageID r.errorMessage r.correlationID
  else if r.commandType = .reaction then .commandResult r.commandType.name .confirmed ""
  else .sendConfirmation r.pendingMessageID r.response.id r.response.timestamp r.correlationID

theorem StoredCommandResult.event_outcome (r : StoredCommandResult) : r.event.outcome = r.outcome := by
  unfold StoredCommandResult.event StoredCommandResult.outcome
  split_ifs <;> rfl

def publishStoredCommandResult (result : StoredCommandResult) (commandID : CommandID) :
    SendProc (Except String Unit) := do
  match ← SendOp.report commandID result.event with
  | .error e => pure (.error e)
  | .ok _ =>
    -- an unconfirmed reaction returns before the row is marked
    if (result.inFlight || result.unknown) && decide (result.commandType = .reaction) then
      pure (.ok ())
    else SendOp.mark commandID

/-- `persistCommandResult`, then `publishStoredCommandResult`, then the acknowledgement. -/
def recordAndPublish (commandID : CommandID) (result : StoredCommandResult) : SendProc Settlement := do
  match ← SendOp.save commandID result with
  | .error _ => pure .defer
  | .ok _ =>
    match ← publishStoredCommandResult result commandID with
    | .error _ => pure .defer
    | .ok _ => pure .ack

def finishFailedSend (cmd : SendMessageCommand) (errorMessage : String) : SendProc Settlement :=
  recordAndPublish cmd.commandID
    { pendingMessageID := cmd.messageID, commandType := cmd.type, response := ⟨"", 0⟩
      correlationID := cmd.correlationID, failed := true, errorMessage := errorMessage
      inFlight := false, unknown := false, whatsAppMessageID := "", attempts := 0 }

def sendIntent (cmd : SendMessageCommand) : StoredCommandResult :=
  { pendingMessageID := cmd.messageID, commandType := cmd.type, response := ⟨"", 0⟩
    correlationID := cmd.correlationID, failed := false, errorMessage := "", inFlight := true
    unknown := false, whatsAppMessageID := stableID cmd.commandID, attempts := 1 }

/-- `BeforeSend`; `began` is the flag of the attempt. -/
def beforeSend (cmd : SendMessageCommand) (began : Bool) : SendProc (Except SendError Unit × Bool) :=
  if began then pure (.ok (), true)
  else do
    match ← SendOp.begin cmd.commandID (sendIntent stableID cmd) with
    | .error e => pure (.error ⟨.plain, "claim send intent: " ++ e⟩, false)
    | .ok false => pure (.error ⟨.alreadyStarted, "send intent already exists"⟩, false)
    | .ok true => pure (.ok (), true)

def sendCommandMessageWithID (cmd : SendMessageCommand) (part : SendPart) (messageID : String)
    (began : Bool) : SendProc (Except SendError SendResponse × Bool) := do
  match ← beforeSend stableID cmd began with
  | (.error e, began) => pure (.error e, began)
  | (.ok _, began) =>
    let _ ← SendOp.start cmd.commandID part messageID
    match ← SendOp.await cmd.commandID part with
    | .error e => pure (.error ⟨.unknownOutcome, "send outcome unknown: " ++ e⟩, began)
    | .ok response => pure (.ok response, began)

/-- `sendCommandMessage` under the context its caller wraps errors with. -/
def sendCommandMessage (cmd : SendMessageCommand) (context : String) (began : Bool) :
    SendProc (Except SendError SendResponse × Bool) := do
  match ← sendCommandMessageWithID stableID cmd .message (stableID cmd.commandID) began with
  | (.error e, began) => pure (.error (e.wrap context), began)
  | (.ok response, began) => pure (.ok response, began)

/-- `SendMessage`, `SendMediaMessage` and `SendReaction`: build the message, send it. -/
def sendPlain (cmd : SendMessageCommand) (context : String) :
    SendProc (Except SendError SendResponse × Bool) := do
  match ← SendOp.ready .parseJID with
  | .error e => pure (.error ⟨.plain, e⟩, false)
  | .ok _ =>
    match ← SendOp.ready .createMessage with
    | .error e => pure (.error ⟨.plain, e⟩, false)
    | .ok _ => sendCommandMessage stableID cmd context false

def sendMediaAlbumMessage (cmd : SendMessageCommand) :
    SendProc (Except SendError SendResponse × Bool) := do
  match ← SendOp.ready .parseJID with
  | .error e => pure (.error ⟨.plain, e⟩, false)
  | .ok _ =>
    if cmd.type ≠ .image ∧ cmd.type ≠ .video then
      pure (.error ⟨.plain, "unsupported album media type: " ++ cmd.type.name⟩, false)
    else if cmd.mediaAlbumID = "" ∨ cmd.mediaAlbumCount < 2 ∨
        cmd.mediaAlbumImageCount + cmd.mediaAlbumVideoCount ≠ cmd.mediaAlbumCount ∨
        cmd.mediaAlbumIndex < 0 ∨ cmd.mediaAlbumIndex ≥ cmd.mediaAlbumCount then
      pure (.error ⟨.plain, "invalid media album context"⟩, false)
    else do
      match ← SendOp.ready .createMessage with
      | .error e => pure (.error ⟨.plain, "failed to create album media message: " ++ e⟩, false)
      | .ok _ =>
        if cmd.mediaAlbumIndex = 0 then do
          match ← sendCommandMessageWithID stableID cmd .manifest cmd.mediaAlbumID false with
          | (.error e, began) => pure (.error (e.wrap "failed to send media album manifest"), began)
          | (.ok _, began) => sendCommandMessage stableID cmd "failed to send media album child" began
        else sendCommandMessage stableID cmd "failed to send media album child" false

/-- The data of a media command: what the preparation pool left, else a download. -/
def mediaData (prepared : Option (Except String Unit)) : SendProc (Except String Unit) :=
  match prepared with
  | some media => pure media
  | none => SendOp.ready .downloadCommandMedia

def executeSend (cmd : SendMessageCommand) (prepared : Option (Except String Unit)) :
    SendProc (Except SendError SendResponse × Bool) :=
  match cmd.type with
  | .text => sendPlain stableID cmd "failed to send message"
  | .reaction => sendPlain stableID cmd "failed to send reaction"
  | .other name => pure (.error ⟨.plain, "unknown message type: " ++ name⟩, false)
  | .image | .video | .audio | .document | .sticker => do
    match ← mediaData prepared with
    | .error e => pure (.error ⟨.plain, e⟩, false)
    | .ok _ =>
      if cmd.mediaAlbumID ≠ "" then sendMediaAlbumMessage stableID cmd
      else sendPlain stableID cmd "failed to send media message"

def commandSideEffectMaxAttempts : ℕ := 3

/-- The attempts of one handler; the number says how many are left. -/
def sendAttempts (cmd : SendMessageCommand) (prepared : Option (Except String Unit)) :
    ℕ → SendProc Settlement
  | 0 => pure .defer
  | left + 1 => do
    match ← executeSend stableID cmd prepared with
    | (.ok response, _) =>
      recordAndPublish cmd.commandID
        { sendIntent stableID cmd with inFlight := false, response := response }
    | (.error e, began) =>
      if e.kind = .alreadyStarted then pure .defer
      else if began || decide (e.kind = .unknownOutcome) then
        recordAndPublish cmd.commandID
          { sendIntent stableID cmd with
            inFlight := false, unknown := true
            errorMessage := "WhatsApp acceptance could not be confirmed" }
      else if prepared.isSome || decide (left = 0) then finishFailedSend cmd e.text
      else do
        match ← SendOp.wait with
        | false => pure .defer
        | true => sendAttempts cmd prepared left

def handleSendCommand (cmd : SendMessageCommand) (prepared : Option (Except String Unit)) :
    SendProc Settlement :=
  -- without a durable identity a retry could become a second message
  if cmd.commandID = "" then pure .term
  else do
    match ← SendOp.read cmd.commandID with
    | .error _ => pure .defer
    | .ok (some stored) =>
      match ← publishStoredCommandResult stored cmd.commandID with
      | .error _ => pure .defer
      | .ok _ => pure .ack
    | .ok none => sendAttempts stableID cmd prepared commandSideEffectMaxAttempts

end Handler

end TeamInbox.Worker
