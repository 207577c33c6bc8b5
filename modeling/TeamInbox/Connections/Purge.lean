import TeamInbox.Connections.Schema

/-!
# TeamInbox.Connections.Purge — purgeArchivedConnection

One transaction: read what is about to go, queue the cleanup of what lies outside the database, add the broadcast
leaves that go to the counters of their jobs, and delete.  The deletions are data (`Statement`), in the order of the
source; a subquery reads the rows as they are when its statement runs.
-/

namespace TeamInbox.Connections

open Lib Broadcast

inductive PurgeCleanupKind
  | searchContact
  | media
  | bulkJob
  deriving DecidableEq

/-- A row of `purge_cleanup_items`, by its unique columns. -/
structure PurgeCleanupItem where
  connectionId : ℕ
  kind : PurgeCleanupKind
  reference : String
  deriving DecidableEq

inductive PurgeError
  | connectionNotFound (connectionId : ℕ)
  | connectionNotArchived
  | foreignKeyViolation
  deriving DecidableEq

structure ArchivedConnectionPurge where
  contactIds : List ℕ
  deletedMessageCount : ℕ
  affectedBulkJobIds : List ℕ
  separatedContacts : List (ℕ × Option String)
  deriving DecidableEq

def rowKey (r : TenantRow) : Table × ℕ := (r.table, r.id)

structure Tenant where
  rows : List TenantRow
  keys : (rows.map rowKey).Nodup
  items : List PurgeCleanupItem

/-! ### Subqueries -/

section Subqueries

variable (connectionId : ℕ) (rows : List TenantRow)

/-- The ids of the rows of `t` whose column `c` is the connection. -/
def idsLinked (t : Table) (c : Column) : List ℕ :=
  (rows.filter fun r => decide (r.table = t) && (r.link c == some connectionId)).map (·.id)

def contactIds : List ℕ := idsLinked connectionId rows .contacts .whatsappConnectionId

def messageIds : List ℕ := idsLinked connectionId rows .messages .whatsappConnectionId

def endpointIds : List ℕ := idsLinked connectionId rows .contactEndpoints .channelAccountId

def groupIds : List ℕ :=
  (rows.filter fun r =>
    decide (r.table = .groups) && (r.link .contactId).any (contactIds connectionId rows).contains).map (·.id)

def ownedIds : Table → List ℕ
  | .contacts => contactIds connectionId rows
  | .messages => messageIds connectionId rows
  | .contactEndpoints => endpointIds connectionId rows
  | .groups => groupIds connectionId rows
  | _ => []

end Subqueries

/-! ### What is queued -/

section Queue

variable (connectionId : ℕ) (rows : List TenantRow)

def mediaItem (reference : String) : PurgeCleanupItem := ⟨connectionId, .media, reference⟩

def searchItems : List PurgeCleanupItem :=
  (contactIds connectionId rows).map fun id => ⟨connectionId, .searchContact, toString id⟩

/-- The stored attachments of the messages of the channel account. -/
def attachmentItems : List PurgeCleanupItem :=
  (rows.filter fun r =>
    decide (r.table = .messageAttachments) && rows.any fun m =>
      decide (m.table = .messages) && (r.link .messageId == some m.id) && (m.link .channelAccountId == some connectionId)
    ).filterMap fun r => r.data.storageUri.map (mediaItem connectionId)

def mediaSources : List (Table × (RowData → Option String)) :=
  [(.messages, (·.mediaUrl)), (.messages, (·.senderAvatarUrl)), (.contacts, (·.profilePictureUrl)),
    (.statusUpdates, (·.mediaUrl)), (.whatsappCatalogs, (·.headerImageUrl)), (.scheduledMessages, (·.mediaUrl))]

/-- Schedules are reached through their contact, every other source directly. -/
def sourceRows (t : Table) : List TenantRow :=
  rows.filter fun r => decide (r.table = t) &&
    if t = .scheduledMessages then (r.link .contactId).any (contactIds connectionId rows).contains
    else r.link .whatsappConnectionId == some connectionId

def mediaItems (source : Table × (RowData → Option String)) : List PurgeCleanupItem :=
  (sourceRows connectionId rows source.1).filterMap fun r => (source.2 r.data).map (mediaItem connectionId)

def imageItems : List PurgeCleanupItem :=
  (sourceRows connectionId rows .catalogProducts).flatMap fun r =>
    (r.data.imageUrls.getD []).map (mediaItem connectionId)

/-- `INSERT … ON CONFLICT DO NOTHING` -/
def insertItem (items : List PurgeCleanupItem) (item : PurgeCleanupItem) : List PurgeCleanupItem :=
  if item ∈ items then items else items ++ [item]

def cleanupItems (affectedBulkJobIds : List ℕ) : List PurgeCleanupItem :=
  searchItems connectionId rows ++ attachmentItems connectionId rows ++
    mediaSources.flatMap (mediaItems connectionId rows) ++ imageItems connectionId rows ++
    affectedBulkJobIds.map fun job => ⟨connectionId, .bulkJob, toString job⟩

end Queue

/-! ### The counters of broadcasts -/

section Progress

/-- The leaves of broadcasts that are addressed to contacts of the connection, by job and status. -/
def purgedLeaves (connectionId : ℕ) (rows : List TenantRow) : List (ℕ × Option ScheduledMessageStatus) :=
  rows.filterMap fun r =>
    if decide (r.table = .scheduledMessages) && (r.link .contactId).any (contactIds connectionId rows).contains then
      (r.link .bulkJobId).map fun job => (job, r.data.status)
    else none

def bulkProgressRows (connectionId : ℕ) (rows : List TenantRow) : List ((ℕ × Option ScheduledMessageStatus) × ℕ) :=
  groupCount id (purgedLeaves connectionId rows)

def addProgress (job : ℕ) (counts : PurgedCounts) (row : (ℕ × Option ScheduledMessageStatus) × ℕ) : PurgedCounts :=
  if row.1.1 ≠ job then counts
  else match row.1.2 with
    | some .sent => { counts with sent := counts.sent + row.2 }
    | some .failed => { counts with failed := counts.failed + row.2 }
    | some .canceled => { counts with canceled := counts.canceled + row.2 }
    | _ => { counts with skipped := counts.skipped + row.2 }

def PurgedCounts.add (a b : PurgedCounts) : PurgedCounts :=
  ⟨a.sent + b.sent, a.failed + b.failed, a.canceled + b.canceled, a.skipped + b.skipped⟩

def countPurged (progress : List ((ℕ × Option ScheduledMessageStatus) × ℕ)) (now : ℕ) (rows : List TenantRow) (job : ℕ) :
    List TenantRow :=
  rows.map fun r =>
    if r.table = .bulkJobs ∧ r.id = job then
      { r with
        data := { r.data with
          purged := r.data.purged.add (progress.foldl (addProgress job) {})
          updatedAt := now } }
    else r

end Progress

/-! ### Statements -/

inductive Selector
  /-- `id = connectionId` -/
  | self
  /-- `id = connectionId and column = connectionId` -/
  | selfLinked (c : Column)
  /-- `column = connectionId` -/
  | account (c : Column)
  /-- `column in (subquery)` -/
  | part (c : Column) (t : Table)
  deriving DecidableEq

inductive Statement
  /-- the rows that meet one of the conditions -/
  | delete (t : Table) (conditions : List Selector)
  /-- `set column = null where column in (subquery)` -/
  | clear (t : Table) (c : Column) (parent : Table)
  deriving DecidableEq

section Run

variable (connectionId : ℕ)

def Selector.selects (rows : List TenantRow) (r : TenantRow) : Selector → Bool
  | .self => decide (r.id = connectionId)
  | .selfLinked c => decide (r.id = connectionId) && (r.link c == some connectionId)
  | .account c => r.link c == some connectionId
  | .part c t => (r.link c).any (ownedIds connectionId rows t).contains

def selected (t : Table) (conditions : List Selector) (rows : List TenantRow) (r : TenantRow) : Bool :=
  decide (r.table = t) && conditions.any (·.selects connectionId rows r)

def Statement.run (rows : List TenantRow) : Statement → Except PurgeError (List TenantRow)
  | .delete t conditions =>
    match deleteWhere foreignKeys (selected connectionId t conditions rows) rows with
    | some rows => .ok rows
    | none => .error .foreignKeyViolation
  | .clear t c parent =>
    .ok (rows.map fun r =>
      if decide (r.table = t) && (r.link c).any (ownedIds connectionId rows parent).contains then r.clear c else r)

def runAll (statements : List Statement) (rows : List TenantRow) : Except PurgeError (List TenantRow) :=
  statements.foldlM (Statement.run connectionId) rows

end Run

def ofContacts (t : Table) : Statement := .delete t [.part .contactId .contacts]

def ofConnection (t : Table) : Statement := .delete t [.account .whatsappConnectionId]

def ofAccount (t : Table) : Statement := .delete t [.account .channelAccountId]

/-- Up to the messages.  `groups.id in (groupIds)` is the condition of `groupIds` itself. -/
def beforeMessages : List Statement :=
  [.delete .messageReactions [.part .messageId .messages],
    ofContacts .conversationCases,
    .clear .conversationCases .openingMessageId .messages,
    ofContacts .conversationStates,
    ofContacts .scheduledMessages,
    ofContacts .contactTags,
    ofContacts .contactAssignments,
    ofContacts .contactNotesPrivate,
    ofContacts .contactNotesShared,
    .delete .notificationHistory [.part .metadataContactId .contacts],
    .delete .groupJoinRequests [.part .groupId .groups],
    .delete .groupParticipants [.part .groupId .groups],
    ofContacts .groups,
    ofAccount .outboundMessageIntents,
    ofAccount .channelEventInbox,
    .delete .contactEndpointReassignmentEvents [.part .contactEndpointId .contactEndpoints]]

def messageConditions : List Selector := [.account .whatsappConnectionId, .account .channelAccountId]

def beforeContacts : List Statement :=
  [ofAccount .channelMessageDeliveryOutbox,
    ofAccount .channelIngressRoutes,
    ofAccount .conversations,
    .delete .channelAccounts [.selfLinked .legacyWhatsappConnectionId],
    .delete .contactEndpointReassignmentEvents [.part .previousContactId .contacts, .part .newContactId .contacts],
    .delete .contactMergeEvents [.part .sourceContactId .contacts, .part .targetContactId .contacts]]

def fromContacts : List Statement :=
  [ofConnection .contacts,
    ofConnection .statusUpdates,
    ofConnection .catalogProducts,
    ofConnection .whatsappCatalogs,
    ofConnection .whatsappLabels,
    ofConnection .bulkConnectionBudgets,
    ofConnection .whatsappConnectionSessions,
    .delete .whatsappConnections [.self]]

section Purge

variable (connectionId now : ℕ)

/-- Merged into a contact of the connection, and not of the connection itself. -/
def isSeparated (rows : List TenantRow) (r : TenantRow) : Bool :=
  decide (r.table = .contacts) && (r.link .mergedIntoContactId).any (contactIds connectionId rows).contains &&
    !(r.link .whatsappConnectionId == some connectionId)

def separateContacts (rows : List TenantRow) : List TenantRow :=
  rows.map fun r =>
    if isSeparated connectionId rows r then
      { r.clear .mergedIntoContactId with data := { r.data with updatedAt := now } }
    else r

/-- `COALESCE(custom_name, display_name, push_name, phone_number)` -/
def contactName (data : RowData) : Option String :=
  data.customName.or (data.displayName.or (data.pushName.or data.phoneNumber))

def separatedContacts (rows : List TenantRow) : List (ℕ × Option String) :=
  (rows.filter (isSeparated connectionId rows)).map fun r => (r.id, contactName r.data)

def purgeBody (rows : List TenantRow) (items : List PurgeCleanupItem) :
    Except PurgeError (ArchivedConnectionPurge × List TenantRow × List PurgeCleanupItem) :=
  match rows.find? fun r => decide (r.table = .whatsappConnections) && decide (r.id = connectionId) with
  | none => .error (.connectionNotFound connectionId)
  | some connection =>
    if connection.data.archivedAt.isNone then .error .connectionNotArchived
    else do
      let contactRows := contactIds connectionId rows
      let progress := bulkProgressRows connectionId rows
      let affectedBulkJobIds := (progress.map (·.1.1)).dedup
      let items := (cleanupItems connectionId rows affectedBulkJobIds).foldl insertItem items
      let counted := affectedBulkJobIds.foldl (countPurged progress now) rows
      let rows ← runAll connectionId beforeMessages counted
      let deletedMessageCount := rows.countP (selected connectionId .messages messageConditions rows)
      let rows ← runAll connectionId (.delete .messages messageConditions :: beforeContacts) rows
      let separated := separatedContacts connectionId rows
      let rows ← runAll connectionId fromContacts (separateContacts connectionId now rows)
      return (⟨contactRows, deletedMessageCount, affectedBulkJobIds, separated⟩, rows, items)

end Purge

end TeamInbox.Connections
