import TeamInbox.Lib.Table
import TeamInbox.Lib.Run

/-!
# TeamInbox.Messages.Handlers — what events do to the stored messages

The rows are the messages of one connection; the database keeps their `messageId` unique.  An outbound message
is stored under a pending id and renamed by whatever first names its WhatsApp id: the confirmation of the send,
a receipt that the ledger of the worker maps back, or a failure whose outcome is unknown.  A handler that
violates the unique index is rolled back (`HandlerError`).

For the record, a store keeps which statuses events have reported for a row, and for which rows a receipt or a
confirmation has been applied.
-/

namespace TeamInbox.Messages

open Lib

inductive MessageStatus
  | pending
  | sent
  | delivered
  | read
  | failed
  deriving DecidableEq

def MessageStatus.rank : MessageStatus → ℕ
  | .pending | .failed => 0
  | .sent => 1
  | .delivered => 2
  | .read => 3

/-! ### Metadata -/

/-- A JSON object, with the texts of its values. -/
abbrev Metadata := Table String String

/-- `NULLIF(m, '{}')`. -/
def nullIfEmpty (m : Metadata) : Option Metadata := if m.keys = [] then none else some m

/-- `COALESCE(m, '{}') || entries`. -/
def mergeEntries (m : Option Metadata) (entries : List (String × String)) : Metadata :=
  entries.foldl (fun m e => m.put e.1 e.2) (m.getD .empty)

/-- What `buildIncomingMessageMetadata` and `buildInboundMessageMetadata` take over from an event. -/
structure IncomingMetadata where
  protocolSenderJid : Option String
  groupMentions : Option String
  mediaAlbumId : Option String
  mediaAlbumIndex : Option String
  mediaAlbumCount : Option String
  fileName : Option String
  contactCards : Option String
  deriving DecidableEq

def IncomingMetadata.entries (m : IncomingMetadata) : List (String × String) :=
  [("protocolSenderJid", m.protocolSenderJid), ("groupMentions", m.groupMentions), ("mediaAlbumId", m.mediaAlbumId),
    ("mediaAlbumIndex", m.mediaAlbumIndex), ("mediaAlbumCount", m.mediaAlbumCount), ("fileName", m.fileName),
    ("contactCards", m.contactCards)].filterMap fun e => e.2.map (e.1, ·)

/-- An id an event may leave out; an empty one counts as left out. -/
def givenId (id : Option String) : Option String := id.filter (· ≠ "")

def deliveryTimeout : String := "delivery_timeout"
def sendOutcomeUnknown : String := "send_outcome_unknown"

/-- `metadata->>'error' IN ('delivery_timeout', 'send_outcome_unknown')`. -/
def Metadata.marked (m : Metadata) : Bool :=
  (m.find? "error").any fun error => error == deliveryTimeout || error == sendOutcomeUnknown

/-- The marker of a failure that a receipt or a confirmation has disproved is removed. -/
def clearMarker (m : Option Metadata) : Option Metadata :=
  m.bind fun m =>
    if m.marked then nullIfEmpty (((m.erase "error").erase "error_message").erase "failed_at") else some m

/-! ### Rows -/

/-- A row of `messages`. -/
structure MessageRow where
  id : ℕ
  messageId : String
  fromMe : Bool
  status : Option MessageStatus
  metadata : Option Metadata

namespace MessageRow

def rank (r : MessageRow) : ℕ := (r.status.map (·.rank)).getD 0

def marked (r : MessageRow) : Bool := r.metadata.any (·.marked)

end MessageRow

inductive HandlerError
  | uniqueViolation
  deriving DecidableEq

structure MessageStore where
  rows : List MessageRow
  /-- rows and the ranks reported for them -/
  reported : List (ℕ × ℕ)
  /-- rows a receipt or a confirmation has been applied to -/
  settled : List ℕ

namespace MessageStore

/-- `INSERT INTO messages`. -/
def insert (s : MessageStore) (r : MessageRow) : Except HandlerError MessageStore :=
  if s.rows.any fun t => decide (t.messageId = r.messageId) then .error .uniqueViolation
  else .ok { s with rows := s.rows ++ [r] }

/-- `UPDATE messages SET … WHERE …`. -/
def update (s : MessageStore) (selects : MessageRow → Bool) (sets : MessageRow → MessageRow) :
    Except HandlerError MessageStore :=
  let rows := s.rows.map fun r => if selects r then sets r else r
  if (rows.map (·.messageId)).Nodup then .ok { s with rows := rows } else .error .uniqueViolation

/-- An event reports a status of the rows it speaks of. -/
def note (s : MessageStore) (addressed : MessageRow → Bool) (rank : ℕ) : MessageStore :=
  { s with reported := ((s.rows.filter addressed).map fun r => (r.id, rank)) ++ s.reported }

def settle (s : MessageStore) (addressed : MessageRow → Bool) : MessageStore :=
  { s with settled := ((s.rows.filter addressed).map (·.id)) ++ s.settled }

end MessageStore

/-! ### Handlers -/

def mapReceiptStatus (type : String) : Option MessageStatus :=
  if type = "sender" ∨ type = "sent" then some .sent
  else if type = "" ∨ type = "delivered" then some .delivered
  else if type = "read" ∨ type = "played" then some .read
  else none

def eligibleCurrentStatuses : MessageStatus → List MessageStatus
  | .sent => [.pending, .failed]
  | .delivered => [.pending, .sent, .failed]
  | _ => [.pending, .sent, .delivered, .failed]

def receiptAddresses (ids : List String) (r : MessageRow) : Bool := decide (r.messageId ∈ ids) && r.fromMe

def receiptAdvances (dbStatus : MessageStatus) (ids : List String) (r : MessageRow) : Bool :=
  receiptAddresses ids r && r.status.all fun status => decide (status ∈ eligibleCurrentStatuses dbStatus)

def receiptSets (dbStatus : MessageStatus) (messageId : String) (r : MessageRow) : MessageRow :=
  { r with
    status := some dbStatus
    messageId := messageId
    metadata := clearMarker r.metadata }

/-- The ids a receipt ends up with: the pending id of the ledger is added when its own finds nothing to do. -/
def receiptIds (s : MessageStore) (dbStatus : MessageStatus) (messageId : String)
    (pendingMessageId : Option String) : List String :=
  if s.rows.any (receiptAdvances dbStatus [messageId]) then [messageId] else messageId :: (givenId pendingMessageId).toList

/-- `pendingMessageId` is what the ledger of the worker maps the message to. -/
def handleReceiptEvent (s : MessageStore) (messageId type : String) (pendingMessageId : Option String) :
    Except HandlerError MessageStore :=
  match mapReceiptStatus type with
  | none => .ok s
  | some dbStatus =>
    let ids := receiptIds s dbStatus messageId pendingMessageId
    ((s.note (receiptAddresses ids) dbStatus.rank).settle (receiptAddresses ids)).update
      (receiptAdvances dbStatus ids) (receiptSets dbStatus messageId)

def confirmationSelects (pendingMessageId messageId : String) (r : MessageRow) : Bool :=
  decide (r.messageId ∈ [pendingMessageId, messageId])

def confirmationSets (messageId : String) (r : MessageRow) : MessageRow :=
  { r with
    messageId := messageId
    status := if r.status = some .delivered ∨ r.status = some .read then r.status else some .sent
    metadata := clearMarker r.metadata }

def handleSendConfirmationEvent (s : MessageStore) (pendingMessageId messageId : String) :
    Except HandlerError MessageStore :=
  let addressed := confirmationSelects pendingMessageId messageId
  ((s.note addressed MessageStatus.sent.rank).settle addressed).update addressed (confirmationSets messageId)

/-- The row is pending, or failed by a timeout only. -/
def unknownSelects (pendingMessageId : String) (r : MessageRow) : Bool :=
  decide (r.messageId = pendingMessageId) && (decide (r.status = some .pending) ||
    decide (r.status = some .failed) && r.metadata.any fun m => decide (m.find? "error" = some deliveryTimeout))

def unknownSets (messageId : Option String) (reason : String) (r : MessageRow) : MessageRow :=
  { r with
    messageId := (givenId messageId).getD r.messageId
    status := some .pending
    metadata := some (mergeEntries r.metadata [("error", sendOutcomeUnknown), ("error_message", reason)]) }

def pendingSelects (pendingMessageId : String) (r : MessageRow) : Bool :=
  decide (r.messageId = pendingMessageId) && decide (r.status = some .pending)

def failedSets (r : MessageRow) : MessageRow := { r with status := some .failed }

inductive SendOutcome
  | failed
  | unknown
  deriving DecidableEq

def handleSendFailedEvent (s : MessageStore) (pendingMessageId : String) (outcome : SendOutcome)
    (messageId : Option String) (reason : String) : Except HandlerError MessageStore :=
  match outcome with
  | .unknown => s.update (unknownSelects pendingMessageId) (unknownSets messageId reason)
  | .failed => s.update (pendingSelects pendingMessageId) failedSets

def eventStatus (fromMe : Bool) (status : Option MessageStatus) : MessageStatus :=
  if fromMe then status.getD .sent else .delivered

/-- The higher of two statuses; `failed` is below `pending`. -/
def mergeStatus (old : Option MessageStatus) (new : MessageStatus) : MessageStatus :=
  if old = some .read ∨ new = .read then .read
  else if old = some .delivered ∨ new = .delivered then .delivered
  else if old = some .sent ∨ new = .sent then .sent
  else if old = some .pending ∨ new = .pending then .pending
  else .failed

def historySets (fromMe : Bool) (status : MessageStatus) (metadata : IncomingMetadata) (r : MessageRow) : MessageRow :=
  { r with
    fromMe := fromMe
    status := some (mergeStatus r.status status)
    metadata := nullIfEmpty (mergeEntries r.metadata metadata.entries) }

/-- The insert of `handleMessageEvent`; `id` is the new row's. -/
def handleMessageEvent (s : MessageStore) (id : ℕ) (messageId : String) (fromMe : Bool)
    (status : Option MessageStatus) (isHistorySync : Bool) (metadata : IncomingMetadata) :
    Except HandlerError MessageStore :=
  let messageStatus := eventStatus fromMe status
  let conflicts := fun r : MessageRow => decide (r.messageId = messageId)
  if s.rows.any conflicts then
    if isHistorySync then
      (s.note conflicts messageStatus.rank).update conflicts (historySets fromMe messageStatus metadata)
    else .ok s
  else
    .ok { s with
      rows := s.rows ++ [⟨id, messageId, fromMe, some messageStatus,
        if metadata.entries = [] then none else some (mergeEntries none metadata.entries)⟩]
      reported := (id, messageStatus.rank) :: s.reported }

/-- The timeout of `cleanupCompanyMessages`, of the row it has selected. -/
def expireSelects (id : ℕ) (r : MessageRow) : Bool :=
  decide (r.id = id) && decide (r.status = some .pending) && r.fromMe && r.metadata.isNone

def expireSets (errorMessage failedAt : String) (r : MessageRow) : MessageRow :=
  { r with
    status := some .failed
    metadata := some (mergeEntries none [("error", deliveryTimeout), ("error_message", errorMessage),
      ("failed_at", failedAt)]) }

inductive MessageAction
  | create (id : ℕ) (pendingMessageId : String)
  | receipt (messageId type : String) (pendingMessageId : Option String)
  | confirmation (pendingMessageId messageId : String)
  | sendFailed (pendingMessageId : String) (outcome : SendOutcome) (messageId : Option String) (reason : String)
  | message (id : ℕ) (messageId : String) (fromMe : Bool) (status : Option MessageStatus) (isHistorySync : Bool)
      (metadata : IncomingMetadata)
  /-- the outbox gives up on the command -/
  | exhausted (pendingMessageId : String)
  | expire (id : ℕ) (errorMessage failedAt : String)
  deriving DecidableEq

def handle (s : MessageStore) : MessageAction → Except HandlerError MessageStore
  | .create id pendingMessageId => s.insert ⟨id, pendingMessageId, true, some .pending, none⟩
  | .receipt messageId type pendingMessageId => handleReceiptEvent s messageId type pendingMessageId
  | .confirmation pendingMessageId messageId => handleSendConfirmationEvent s pendingMessageId messageId
  | .sendFailed pendingMessageId outcome messageId reason =>
    handleSendFailedEvent s pendingMessageId outcome messageId reason
  | .message id messageId fromMe status isHistorySync metadata =>
    handleMessageEvent s id messageId fromMe status isHistorySync metadata
  | .exhausted pendingMessageId => s.update (pendingSelects pendingMessageId) failedSets
  | .expire id errorMessage failedAt => s.update (expireSelects id) (expireSets errorMessage failedAt)

def MessageAction.newRow : MessageAction → Option ℕ
  | .create id _ | .message id _ _ _ _ _ => some id
  | _ => none

/-- A handler that fails changes nothing; its event comes again. -/
def messageStep (s : MessageStore) (a : MessageAction) : Option MessageStore :=
  if a.newRow.all fun id => decide (id ∉ s.rows.map (·.id)) then
    match handle s a with
    | .ok s' => some s'
    | .error _ => some s
  else none

def MessageStore.empty : MessageStore := ⟨[], [], []⟩

end TeamInbox.Messages
