import TeamInbox.Lib.Relational
import TeamInbox.Broadcast.Records

/-!
# TeamInbox.Connections.Schema — the tables of a tenant and their foreign keys

The tables a connection's data is spread over.  `foreignKeys` are the constraints of the tenant schema; the two
`public` tables at the end of `Table` have none.  `accountColumns` and `ownerColumns` say whom a row belongs to.
-/

namespace TeamInbox.Connections

open Lib

inductive Table
  | whatsappConnections
  | whatsappConnectionSessions
  | connectionEmailAlerts
  | whatsappLabels
  | whatsappLabelAssociations
  | whatsappCatalogs
  | catalogProducts
  | statusUpdates
  | bulkConnectionBudgets
  | bulkJobs
  | contacts
  | contactTags
  | contactAssignments
  | contactNotesPrivate
  | contactNotesShared
  | contactSuppressions
  | contactMergeEvents
  | contactEndpointReassignmentEvents
  | notificationHistory
  | groups
  | groupJoinRequests
  | groupParticipants
  | conversationCases
  | conversationStates
  | scheduledMessages
  | messages
  | messageReactions
  | messageAttachments
  | messageParticipants
  | messageDeliveryEvents
  | whatsappAttachmentFetchState
  | channelAccounts
  | channelAccountCredentials
  | channelAccountCapabilities
  | channelEventInbox
  | contactEndpoints
  | endpointAccountStates
  | endpointPresence
  | conversations
  | conversationNotes
  | conversationSyncStates
  | conversationParticipants
  | conversationTags
  | outboundMessageIntents
  | outboundIntentAttachments
  | channelMessageDeliveryOutbox
  | channelIngressRoutes
  deriving DecidableEq

inductive Column
  | whatsappConnectionId
  | connectionId
  | legacyWhatsappConnectionId
  | channelAccountId
  | contactId
  | legacyContactId
  | mergedIntoContactId
  | sourceContactId
  | targetContactId
  | previousContactId
  | newContactId
  /-- `metadata->>'contactId'` -/
  | metadataContactId
  | messageId
  | openingMessageId
  | replyToMessageId
  | caseId
  | activeCaseId
  | reopenedFromCaseId
  | groupId
  | labelId
  | conversationId
  | senderParticipantId
  | contactEndpointId
  | recipientEndpointId
  | reactorEndpointId
  | attachmentId
  | intentId
  | scheduledMessageId
  | mergeEventId
  | bulkJobId
  deriving DecidableEq

/-- The counters of the leaves a purge has deleted. -/
structure PurgedCounts where
  sent : ℕ := 0
  failed : ℕ := 0
  canceled : ℕ := 0
  skipped : ℕ := 0
  deriving DecidableEq

/-- The other columns, as far as a purge reads or writes them. -/
structure RowData where
  archivedAt : Option ℕ := none
  mediaUrl : Option String := none
  senderAvatarUrl : Option String := none
  profilePictureUrl : Option String := none
  headerImageUrl : Option String := none
  storageUri : Option String := none
  imageUrls : Option (List String) := none
  status : Option Broadcast.ScheduledMessageStatus := none
  purged : PurgedCounts := {}
  customName : Option String := none
  displayName : Option String := none
  pushName : Option String := none
  phoneNumber : Option String := none
  updatedAt : ℕ := 0
  deriving DecidableEq

abbrev TenantRow : Type := Row Table Column RowData

open Table Column in
/-- The foreign keys of the tenant schema.  Those without an action are `restrict` here: both fail the statement if a
row that stays refers to a deleted one. -/
def foreignKeys : List (ForeignKey Table Column) :=
  [⟨whatsappConnectionSessions, whatsappConnectionId, whatsappConnections, .cascade⟩,
    ⟨connectionEmailAlerts, connectionId, whatsappConnections, .cascade⟩,
    ⟨whatsappLabels, whatsappConnectionId, whatsappConnections, .cascade⟩,
    ⟨whatsappLabelAssociations, labelId, whatsappLabels, .cascade⟩,
    ⟨whatsappCatalogs, whatsappConnectionId, whatsappConnections, .cascade⟩,
    ⟨catalogProducts, whatsappConnectionId, whatsappConnections, .cascade⟩,
    ⟨statusUpdates, whatsappConnectionId, whatsappConnections, .cascade⟩,
    ⟨bulkConnectionBudgets, whatsappConnectionId, whatsappConnections, .cascade⟩,
    ⟨contacts, whatsappConnectionId, whatsappConnections, .cascade⟩,
    ⟨contacts, mergedIntoContactId, contacts, .restrict⟩,
    ⟨contactAssignments, conversationId, conversations, .cascade⟩,
    ⟨contactNotesPrivate, conversationId, conversations, .cascade⟩,
    ⟨contactNotesShared, conversationId, conversations, .cascade⟩,
    ⟨contactSuppressions, contactId, contacts, .cascade⟩,
    ⟨contactMergeEvents, sourceContactId, contacts, .restrict⟩,
    ⟨contactMergeEvents, targetContactId, contacts, .restrict⟩,
    ⟨contactEndpointReassignmentEvents, mergeEventId, contactMergeEvents, .restrict⟩,
    ⟨contactEndpointReassignmentEvents, contactEndpointId, contactEndpoints, .restrict⟩,
    ⟨contactEndpointReassignmentEvents, previousContactId, contacts, .restrict⟩,
    ⟨contactEndpointReassignmentEvents, newContactId, contacts, .restrict⟩,
    ⟨groupJoinRequests, groupId, groups, .cascade⟩,
    ⟨conversationCases, contactId, contacts, .cascade⟩,
    ⟨conversationCases, conversationId, conversations, .cascade⟩,
    ⟨conversationCases, reopenedFromCaseId, conversationCases, .restrict⟩,
    ⟨conversationCases, openingMessageId, messages, .restrict⟩,
    ⟨conversationStates, conversationId, conversations, .cascade⟩,
    ⟨conversationStates, activeCaseId, conversationCases, .setNull⟩,
    ⟨scheduledMessages, conversationId, conversations, .cascade⟩,
    ⟨messages, whatsappConnectionId, whatsappConnections, .cascade⟩,
    ⟨messages, channelAccountId, channelAccounts, .restrict⟩,
    ⟨messages, conversationId, conversations, .restrict⟩,
    ⟨messages, senderParticipantId, conversationParticipants, .setNull⟩,
    ⟨messages, replyToMessageId, messages, .setNull⟩,
    ⟨messages, caseId, conversationCases, .setNull⟩,
    ⟨messageReactions, reactorEndpointId, contactEndpoints, .setNull⟩,
    ⟨messageReactions, channelAccountId, channelAccounts, .restrict⟩,
    ⟨messageAttachments, messageId, messages, .cascade⟩,
    ⟨messageParticipants, messageId, messages, .cascade⟩,
    ⟨messageParticipants, contactEndpointId, contactEndpoints, .setNull⟩,
    ⟨messageDeliveryEvents, channelAccountId, channelAccounts, .cascade⟩,
    ⟨messageDeliveryEvents, messageId, messages, .cascade⟩,
    ⟨messageDeliveryEvents, recipientEndpointId, contactEndpoints, .setNull⟩,
    ⟨whatsappAttachmentFetchState, attachmentId, messageAttachments, .cascade⟩,
    ⟨channelAccounts, legacyWhatsappConnectionId, whatsappConnections, .restrict⟩,
    ⟨channelAccountCredentials, channelAccountId, channelAccounts, .cascade⟩,
    ⟨channelAccountCapabilities, channelAccountId, channelAccounts, .cascade⟩,
    ⟨channelEventInbox, channelAccountId, channelAccounts, .cascade⟩,
    ⟨contactEndpoints, contactId, contacts, .setNull⟩,
    ⟨contactEndpoints, channelAccountId, channelAccounts, .cascade⟩,
    ⟨endpointAccountStates, channelAccountId, channelAccounts, .cascade⟩,
    ⟨endpointAccountStates, contactEndpointId, contactEndpoints, .cascade⟩,
    ⟨endpointPresence, channelAccountId, channelAccounts, .cascade⟩,
    ⟨endpointPresence, contactEndpointId, contactEndpoints, .cascade⟩,
    ⟨conversations, channelAccountId, channelAccounts, .restrict⟩,
    ⟨conversations, legacyContactId, contacts, .restrict⟩,
    ⟨conversationNotes, conversationId, conversations, .cascade⟩,
    ⟨conversationSyncStates, conversationId, conversations, .cascade⟩,
    ⟨conversationParticipants, conversationId, conversations, .cascade⟩,
    ⟨conversationParticipants, contactEndpointId, contactEndpoints, .setNull⟩,
    ⟨conversationTags, conversationId, conversations, .cascade⟩,
    ⟨outboundMessageIntents, channelAccountId, channelAccounts, .restrict⟩,
    ⟨outboundMessageIntents, conversationId, conversations, .restrict⟩,
    ⟨outboundMessageIntents, messageId, messages, .restrict⟩,
    ⟨outboundMessageIntents, scheduledMessageId, scheduledMessages, .restrict⟩,
    ⟨outboundIntentAttachments, intentId, outboundMessageIntents, .cascade⟩]

/-! ### Whom a row belongs to -/

open Column in
/-- The columns that name a connection, or its channel account. -/
def accountColumns : Table → List Column
  | .whatsappConnectionSessions | .whatsappLabels | .whatsappCatalogs | .catalogProducts | .statusUpdates
  | .bulkConnectionBudgets | .contacts => [whatsappConnectionId]
  | .connectionEmailAlerts => [connectionId]
  | .messages => [whatsappConnectionId, channelAccountId]
  | .messageDeliveryEvents | .channelAccountCredentials | .channelAccountCapabilities | .channelEventInbox
  | .contactEndpoints | .endpointAccountStates | .endpointPresence | .conversations | .outboundMessageIntents
  | .channelMessageDeliveryOutbox | .channelIngressRoutes => [channelAccountId]
  | _ => []

open Column in
/-- The columns that name a row this one is part of, and the table of that row. -/
def ownerColumns : Table → List (Column × Table)
  | .whatsappLabelAssociations => [(labelId, .whatsappLabels)]
  | .contactTags | .contactSuppressions | .groups => [(contactId, .contacts)]
  | .contactAssignments | .contactNotesPrivate | .contactNotesShared | .conversationCases | .conversationStates
  | .scheduledMessages => [(contactId, .contacts), (conversationId, .conversations)]
  | .contactMergeEvents => [(sourceContactId, .contacts), (targetContactId, .contacts)]
  | .contactEndpointReassignmentEvents =>
    [(contactEndpointId, .contactEndpoints), (previousContactId, .contacts), (newContactId, .contacts)]
  | .notificationHistory => [(metadataContactId, .contacts)]
  | .groupJoinRequests | .groupParticipants => [(groupId, .groups)]
  | .messageReactions | .messageAttachments | .messageParticipants | .messageDeliveryEvents => [(messageId, .messages)]
  | .whatsappAttachmentFetchState => [(attachmentId, .messageAttachments)]
  | .endpointAccountStates | .endpointPresence => [(contactEndpointId, .contactEndpoints)]
  | .conversationNotes | .conversationSyncStates | .conversationParticipants | .conversationTags =>
    [(conversationId, .conversations)]
  | .outboundIntentAttachments => [(intentId, .outboundMessageIntents)]
  | _ => []

/-- The row is the connection or its channel account, names it, or is part of a row that belongs to it. -/
inductive Belongs (connectionId : ℕ) (rows : List TenantRow) : TenantRow → Prop
  | root {r : TenantRow} (table : r.table = .whatsappConnections ∨ r.table = .channelAccounts) (id : r.id = connectionId) :
    Belongs connectionId rows r
  | account {r : TenantRow} {c : Column} (column : c ∈ accountColumns r.table) (link : r.link c = some connectionId) :
    Belongs connectionId rows r
  | part {r p : TenantRow} {c : Column} (column : (c, p.table) ∈ ownerColumns r.table) (row : p ∈ rows)
    (link : r.link c = some p.id) (owner : Belongs connectionId rows p) : Belongs connectionId rows r

/-- Every cascading key goes from what a row belongs to. -/
def Owning (k : ForeignKey Table Column) : Prop :=
  ((k.parent = .whatsappConnections ∨ k.parent = .channelAccounts) ∧ k.column ∈ accountColumns k.table) ∨
    (k.column, k.parent) ∈ ownerColumns k.table

instance (k : ForeignKey Table Column) : Decidable (Owning k) := inferInstanceAs (Decidable (_ ∨ _))

theorem cascade_owning : ∀ k ∈ foreignKeys, k.onDelete = .cascade → Owning k := by decide

theorem Belongs.id_eq {connectionId : ℕ} {rows : List TenantRow} {r : TenantRow} (h : Belongs connectionId rows r)
    (ht : r.table = .whatsappConnections ∨ r.table = .channelAccounts) : r.id = connectionId := by
  cases h with
  | root _ hid => exact hid
  | account hc _ =>
    rcases ht with ht | ht <;> rw [ht] at hc <;> exact absurd hc List.not_mem_nil
  | part hc _ _ _ =>
    rcases ht with ht | ht <;> rw [ht] at hc <;> exact absurd hc List.not_mem_nil

/-- **A row that refers to one that belongs to the connection by a cascading key belongs to it too.** -/
theorem Belongs.cascade {connectionId : ℕ} {rows : List TenantRow} {r p : TenantRow} (hp : p ∈ rows)
    (howner : Belongs connectionId rows p) {k : ForeignKey Table Column} (hk : k ∈ foreignKeys)
    (haction : k.onDelete = .cascade) (hrefers : k.refers r p = true) : Belongs connectionId rows r := by
  obtain ⟨htable, hparent, hlink⟩ := ForeignKey.refers_iff.mp hrefers
  rcases cascade_owning k hk haction with ⟨hroot, hcolumn⟩ | hcolumn
  · rw [← hparent] at hroot
    rw [← htable] at hcolumn
    exact .account hcolumn (hlink.trans (congrArg some (howner.id_eq hroot)))
  · rw [← htable, ← hparent] at hcolumn
    exact .part hcolumn hp hlink howner

end TeamInbox.Connections
