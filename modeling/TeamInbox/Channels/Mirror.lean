import TeamInbox.Channels.Workspace

/-!
# TeamInbox.Channels.Mirror — the linked device, mirrored in the channel tables

Every writer of the linked device repeats what it has written in the tables of the threads: the bridge of the contact
(its endpoint, its conversation, the participants), the message, and the workflow rows of the contact.  The ids of a
bridge are derived from what it connects.  A statement that breaks a unique index throws; then the writes of the mirror
are taken back to a savepoint, and the journal says so.
-/

namespace TeamInbox.Channels

open TeamInbox.Lib
open TeamInbox.Cases (Uuid Case Assignment)
open TeamInbox.Messages (givenId)

/-! ### The bridge -/

structure LinkedDeviceBridge where
  channelAccountID : Uuid
  contactEndpointID : Uuid
  conversationID : Uuid
  accountParticipantID : Uuid
  externalParticipantID : Uuid
  externalThreadID : String
  deriving DecidableEq

inductive BridgeError
  | contactMissing
  | connectionMissing
  | endpointMissing
  deriving DecidableEq

def BridgeError.errorCode : BridgeError → String
  | .contactMissing => "legacy_contact_missing"
  | .connectionMissing => "legacy_connection_missing"
  | .endpointMissing => "legacy_endpoint_missing"

/-- `digest` makes a UUID of the SHA-256 of a text. -/
def deterministicChannelUuid (digest : String → Uuid) (purpose : String) (parts : List String) : Uuid :=
  digest (String.intercalate "\x1f" ("wateaminbox-channel-spine-v1" :: purpose :: parts))

def contactEndpointID (digest : String → Uuid) (connectionID : Uuid) (jid : String) : Uuid :=
  deterministicChannelUuid digest "linked-device-endpoint" [connectionID, jid]

def linkedDeviceBridge (digest : String → Uuid) (contactID connectionID : Uuid) (jid : String) : LinkedDeviceBridge where
  channelAccountID := connectionID
  contactEndpointID := contactEndpointID digest connectionID jid
  conversationID := contactID
  accountParticipantID := deterministicChannelUuid digest "linked-device-account-participant" [contactID, connectionID]
  externalParticipantID :=
    deterministicChannelUuid digest "linked-device-external-participant"
      [contactID, contactEndpointID digest connectionID jid]
  externalThreadID := jid

structure LegacyThread where
  row : SpineContact
  profile : ContactProfile
  connectionID : Uuid
  jid : String
  deriving DecidableEq

/-- The reads of `ensureLinkedDeviceBridge`. -/
def Workspace.legacyThread (contactID : Uuid) (db : Workspace) : Except BridgeError LegacyThread :=
  match db.contact contactID with
  | none => .error .contactMissing
  | some (row, profile) =>
    match givenId profile.whatsappConnectionID with
    | none => .error .connectionMissing
    | some connection =>
      match givenId profile.jid with
      | none => .error .endpointMissing
      | some jid => if connection ∈ db.connections then .ok ⟨row, profile, connection, jid⟩ else .error .connectionMissing

namespace LegacyThread

def shownName (t : LegacyThread) : Option String := (t.profile.customName.or t.row.pushName).or t.row.username

def owner (t : LegacyThread) : Option Uuid := if t.profile.isGroup then none else some t.row.id

def endpointID (digest : String → Uuid) (t : LegacyThread) : Uuid := contactEndpointID digest t.connectionID t.jid

def bridge (digest : String → Uuid) (t : LegacyThread) : LinkedDeviceBridge :=
  linkedDeviceBridge digest t.row.id t.connectionID t.jid

def endpoint (digest : String → Uuid) (t : LegacyThread) : SpineEndpoint where
  id := t.endpointID digest
  contactID := t.owner
  channel := "whatsapp"
  provider := "whatsapp_linked_device"
  channelAccountID := t.connectionID
  identityScope := "linked-device-account:" ++ t.connectionID
  externalID := t.jid
  endpointKind := if t.profile.isGroup then "group" else "person"
  normalizedAddress := t.profile.phoneNumber
  addressDisplay := some (t.profile.phoneNumber.getD t.jid)
  displayName := t.shownName

/-- `ON CONFLICT (id) DO UPDATE` -/
def rewrite (t : LegacyThread) (f : SpineEndpoint) : SpineEndpoint :=
  { f with
    contactID := t.owner
    normalizedAddress := t.profile.phoneNumber
    addressDisplay := some (t.profile.phoneNumber.getD t.jid)
    displayName := t.shownName }

def reference (t : LegacyThread) : ConversationReference where
  clientThreadKey := "legacy-contact:" ++ t.row.id
  kind := if t.profile.isGroup then .group else .direct
  subject := if t.profile.isGroup then t.profile.customName.or t.row.pushName else none

def conversation (t : LegacyThread) : SpineConversation where
  id := t.row.id
  channelAccountID := t.connectionID
  clientThreadKey := t.reference.clientThreadKey
  kind := t.reference.kind
  subject := t.reference.subject
  legacyContactID := some t.row.id
  firstMessageAt := none
  lastMessageAt := none

end LegacyThread

/-- `ce_scoped_uidx`: the two are one address. -/
def SpineEndpoint.sameAddress (f g : SpineEndpoint) : Bool :=
  decide (f.channel = g.channel) && decide (f.provider = g.provider) &&
    decide (f.channelAccountID = g.channelAccountID) && decide (f.identityScope = g.identityScope) &&
    decide (f.externalID = g.externalID)

def SpineConversation.sameThread (v w : SpineConversation) : Bool :=
  decide (v.channelAccountID = w.channelAccountID) && decide (v.clientThreadKey = w.clientThreadKey)

def nameContact (t : LegacyThread) (db : SpineDb) : SpineDb :=
  { db with
    contacts := db.contacts.map fun c =>
      if c.id = t.row.id then { c with displayName := t.shownName.or t.profile.phoneNumber } else c }

def upsertEndpoint (digest : String → Uuid) (t : LegacyThread) (db : SpineDb) : Option SpineDb :=
  if db.endpoints.rows.any fun f => decide (f.id = t.endpointID digest) then
    some { db with
      endpoints := db.endpoints.set (fun f => f.id = t.endpointID digest) t.rewrite (keeps_endpoint _ fun _ => rfl) }
  else if db.endpoints.rows.any (SpineEndpoint.sameAddress (t.endpoint digest)) then none
  else (db.endpoints.insert (t.endpoint digest)).map fun endpoints => { db with endpoints := endpoints }

def upsertConversation (t : LegacyThread) (db : SpineDb) : Option SpineDb :=
  if db.conversations.rows.any fun v => decide (v.id = t.row.id) then
    some { db with
      conversations := db.conversations.set (fun v => v.id = t.row.id) (SpineConversation.refer t.reference)
        (keeps_refer _ _) }
  else if db.conversations.rows.any (SpineConversation.sameThread t.conversation) then none
  else (db.conversations.insert t.conversation).map fun conversations => { db with conversations := conversations }

/-- `ON CONFLICT (id)` leaves a participant as it is. -/
def upsertParticipant (id : Uuid) (row : SpineParticipant) (db : Workspace) : Workspace :=
  if id ∈ db.bridgedParticipants then db
  else
    { db with
      spine := { db.spine with participants := row :: db.spine.participants }
      bridgedParticipants := id :: db.bridgedParticipants }

def upsertParticipants (t : LegacyThread) (bridge : LinkedDeviceBridge) (db : Workspace) : Workspace :=
  upsertParticipant bridge.externalParticipantID
    ⟨bridge.conversationID, some bridge.contactEndpointID, true, if t.profile.isGroup then "member" else "guest", false,
      none⟩
    (upsertParticipant bridge.accountParticipantID ⟨bridge.conversationID, none, false, "account", true, none⟩ db)

/-- The writes of `ensureLinkedDeviceBridge`. -/
def buildBridge (digest : String → Uuid) (t : LegacyThread) (db : Workspace) : Option Workspace :=
  ((upsertEndpoint digest t (nameContact t db.spine)).bind (upsertConversation t)).map fun spine =>
    upsertParticipants t (t.bridge digest) { db with spine := spine }

abbrev BridgeResult := Except BridgeError LinkedDeviceBridge

def ensureLinkedDeviceBridge (digest : String → Uuid) (contactID : Uuid) (db : Workspace) :
    Option (BridgeResult × Workspace) :=
  match db.legacyThread contactID with
  | .error e => some (.error e, db)
  | .ok t => (buildBridge digest t db).map fun db => (.ok (t.bridge digest), db)

def Workspace.isBridged (bridge : LinkedDeviceBridge) (db : Workspace) : Bool :=
  (db.spine.conversations.rows.any fun v =>
    decide (v.id = bridge.conversationID) && decide (v.channelAccountID = bridge.channelAccountID)) &&
    decide (bridge.externalParticipantID ∈ db.bridgedParticipants)

/-- The bridge of the contact, as its row describes it. -/
def Workspace.describedBridge (digest : String → Uuid) (contactID : Uuid) (db : Workspace) : Option LinkedDeviceBridge :=
  (db.contact contactID).bind fun (row, profile) =>
    (givenId profile.whatsappConnectionID).bind fun connection =>
      (givenId profile.jid).map (linkedDeviceBridge digest row.id connection)

def resolveLinkedDeviceBridge (digest : String → Uuid) (contactID : Uuid) (db : Workspace) :
    Option (BridgeResult × Workspace) :=
  match (db.describedBridge digest contactID).filter (db.isBridged ·) with
  | some bridge => some (.ok bridge, db)
  | none => ensureLinkedDeviceBridge digest contactID db

/-! ### The message -/

/-- The id of a message that the provider has confirmed. -/
def confirmedProviderID (messageID : Option String) : Option String :=
  (givenId messageID).filter fun id => !"pending_".toList.isPrefixOf id.toList

def mirroredMessage (bridge : LinkedDeviceBridge) (m : LegacyMessage) (externalMessageID : String) : SpineMessage where
  id := m.id
  contactID := m.contactID
  conversationID := bridge.conversationID
  channelAccountID := bridge.channelAccountID
  externalIdentityScope := "linked-device-thread:" ++ bridge.externalThreadID
  externalMessageID := externalMessageID
  fromMe := m.fromMe
  textContent := givenId m.content
  providerOccurredAt := some m.timestamp
  caseID := m.caseID

/-- `msg_external_uidx` -/
def SpineMessage.sameIdentity (m n : SpineMessage) : Bool :=
  decide (m.channelAccountID = n.channelAccountID) && decide (m.externalIdentityScope = n.externalIdentityScope) &&
    decide (m.externalMessageID = n.externalMessageID)

/-- Without an external id no event finds the message. -/
def mirrorMessage (bridge : LinkedDeviceBridge) (m : LegacyMessage) (db : SpineDb) : Option SpineDb :=
  let others := db.messages.filter fun n => decide (n.id ≠ m.id)
  match confirmedProviderID m.messageID with
  | none => some { db with messages := others }
  | some externalMessageID =>
    if others.any (SpineMessage.sameIdentity (mirroredMessage bridge m externalMessageID)) then none
    else some { db with messages := mirroredMessage bridge m externalMessageID :: others }

def Workspace.messageOf (messageID : Uuid) (db : Workspace) : Option (LegacyMessage × Uuid) :=
  (db.legacyMessages.find? (·.id = messageID)).bind fun m => m.contactID.map fun contact => (m, contact)

def mirrorBridged (m : LegacyMessage) (r : BridgeResult × Workspace) : Option (BridgeResult × Workspace) :=
  match r.1 with
  | .error e => some (.error e, r.2)
  | .ok bridge => (mirrorMessage bridge m r.2.spine).map fun spine => (.ok bridge, { r.2 with spine := spine })

def shadowLinkedDeviceMessage (digest : String → Uuid) (messageID : Uuid) (db : Workspace) :
    Option (BridgeResult × Workspace) :=
  match db.messageOf messageID with
  | none => some (.error .contactMissing, db)
  | some (m, contactID) => (resolveLinkedDeviceBridge digest contactID db).bind (mirrorBridged m)

/-! ### The workflow -/

def unthreaded (contactID : Uuid) (rowContact rowConversation : Option Uuid) : Bool :=
  decide (rowContact = some contactID) && rowConversation.isNone

def unthreadedState (contactID : Uuid) (r : ThreadState) : Bool := unthreaded contactID r.contactID r.conversationID

def unthreadedAssignment (contactID : Uuid) (a : Assignment) : Bool := unthreaded contactID a.contactID a.conversationID

/-- All cases of the contact, with or without a thread. -/
def contactCase (contactID : Uuid) (c : Case) : Bool := decide (c.contactID = some contactID)

def threadState (conversationID : Uuid) (r : ThreadState) : ThreadState :=
  { r with toStateRow := { r.toStateRow with conversationID := some conversationID } }

def threadAssignment (conversationID : Uuid) (a : Assignment) : Assignment :=
  { a with conversationID := some conversationID }

def threadCase (conversationID : Uuid) (c : Case) : Case := { c with conversationID := some conversationID }

def threadWorkflow (contactID conversationID : Uuid) (db : SpineDb) : Option SpineDb :=
  (db.states.update (unthreadedState contactID) (threadState conversationID)).bind fun states =>
  (db.assignments.update (unthreadedAssignment contactID) (threadAssignment conversationID)).bind fun assignments =>
  (db.cases.update (contactCase contactID) (threadCase conversationID)).map fun cases =>
  { db with
    states := states
    assignments := assignments
    cases := cases }

def threadBridged (contactID : Uuid) (r : BridgeResult × Workspace) : Option (BridgeResult × Workspace) :=
  match r.1 with
  | .error e => some (.error e, r.2)
  | .ok bridge =>
    (threadWorkflow contactID bridge.conversationID r.2.spine).map fun spine => (.ok bridge, { r.2 with spine := spine })

def shadowLinkedDeviceWorkflow (digest : String → Uuid) (contactID : Uuid) (db : Workspace) :
    Option (BridgeResult × Workspace) :=
  (ensureLinkedDeviceBridge digest contactID db).bind (threadBridged contactID)

/-! ### The mirror of one write -/

def bridgeError : BridgeResult → Option String
  | .error e => some e.errorCode
  | .ok _ => none

def shadowMessage (digest : String → Uuid) (messageID : Option Uuid) (db : Workspace) : Option (Option String × Workspace) :=
  match messageID with
  | none => some (none, db)
  | some id => (shadowLinkedDeviceMessage digest id db).map fun r => (bridgeError r.1, r.2)

/-- What is written after the savepoint, with the error code. -/
def shadowWrites (digest : String → Uuid) (contactID : Uuid) (messageID : Option Uuid) (db : Workspace) :
    Option (Option String × Workspace) :=
  (shadowMessage digest messageID db).bind fun message =>
    (shadowLinkedDeviceWorkflow digest contactID message.2).map fun r => ((bridgeError r.1).or message.1, r.2)

def journalRow (contactID : Uuid) (messageID : Option Uuid) (errorCode : String) : JournalRow :=
  match messageID with
  | some id => ⟨"message", "messages", id, errorCode⟩
  | none => ⟨"workflow", "contacts", contactID, errorCode⟩

def journalLinkedDeviceShadowFailure (row : JournalRow) (db : Workspace) : Workspace :=
  { db with
    journal := row :: db.journal.filter fun r =>
      !(decide (r.kind = row.kind) && decide (r.legacyTable = row.legacyTable) && decide (r.legacyID = row.legacyID)) }

def endShadow (contactID : Uuid) (messageID : Option Uuid) (r : Option String × Workspace) : Bool × Workspace :=
  match r.1 with
  | none => (true, r.2)
  | some errorCode => (false, journalLinkedDeviceShadowFailure (journalRow contactID messageID errorCode) r.2)

/-- With `released`, no statement has thrown and the savepoint is released. -/
def shadowLinkedDeviceLegacyMutation (digest : String → Uuid) (released : Bool) (contactID : Uuid)
    (messageID : Option Uuid) (db : Workspace) : Option (Bool × Workspace) :=
  if released then (shadowWrites digest contactID messageID db).map (endShadow contactID messageID)
  else some (endShadow contactID messageID (some "shadow_write_failed", db))

end TeamInbox.Channels
