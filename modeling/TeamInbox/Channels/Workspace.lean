import TeamInbox.Channels.Threads

/-!
# TeamInbox.Channels.Workspace — the customers of a workspace, and their merges

The tables of the threads with what else the linked device and the merges of customers keep.  A merge and its reversal
are one transaction each; a check that fails leaves nothing behind.
-/

namespace TeamInbox.Channels

open TeamInbox.Lib
open TeamInbox.Cases (Uuid Case Assignment)

/-! ### Rows -/

/-- The columns of `contacts` that `SpineContact` does not have. -/
structure ContactProfile where
  whatsappConnectionID : Option Uuid
  jid : Option String
  phoneNumber : Option String
  customName : Option String
  isGroup : Bool
  mergedIntoContactID : Option Uuid
  archived : Bool
  deriving DecidableEq

/-- As `attachWorkflowContact` leaves them. -/
def ContactProfile.blank : ContactProfile := ⟨none, none, none, none, false, none, false⟩

/-- A row of `messages` as the linked device stores it. -/
structure LegacyMessage where
  id : Uuid
  contactID : Option Uuid
  messageID : Option String
  fromMe : Bool
  content : Option String
  timestamp : ℕ
  caseID : Option Uuid
  deriving DecidableEq

/-- A row of `channel_spine_reconciliation_journal`. -/
structure JournalRow where
  kind : String
  legacyTable : String
  legacyID : Uuid
  errorCode : String
  deriving DecidableEq

/-- A row of `contact_merge_events`. -/
structure MergeEvent where
  id : Uuid
  sourceContactID : Uuid
  targetContactID : Uuid
  deriving DecidableEq

/-- A row of `contact_endpoint_reassignment_events`. -/
structure Reassignment where
  mergeEventID : Option Uuid
  contactEndpointID : Uuid
  previousContactID : Uuid
  newContactID : Uuid
  deriving DecidableEq

structure Workspace where
  spine : SpineDb
  profiles : Table Uuid ContactProfile
  /-- the ids of `whatsapp_connections` -/
  connections : List Uuid
  legacyMessages : List LegacyMessage
  /-- the participants whose ids are derived -/
  bridgedParticipants : List Uuid
  journal : List JournalRow
  mergeEvents : List MergeEvent
  reassignments : List Reassignment

def Workspace.empty : Workspace := ⟨.empty, .empty, [], [], [], [], [], []⟩

def SpineDb.contactOf (db : SpineDb) (endpointID : Uuid) : Option Uuid :=
  (db.endpoints.rows.find? (·.id = endpointID)).bind (·.contactID)

def SpineDb.conversationOf (db : SpineDb) (caseID : Uuid) : Option Uuid :=
  (db.cases.rows.find? (·.id = caseID)).bind (·.conversationID)

def Workspace.profile (db : Workspace) (contactID : Uuid) : ContactProfile :=
  (db.profiles.find? contactID).getD .blank

/-- A row of `contacts`. -/
def Workspace.contact (db : Workspace) (contactID : Uuid) : Option (SpineContact × ContactProfile) :=
  (db.spine.contacts.find? (·.id = contactID)).map fun row => (row, db.profile contactID)

/-! ### Merging -/

def mergeableEndpointKinds : List String := ["person", "user", "phone", "email"]

/-- Neither of the contacts is a group, or merged already. -/
def Workspace.canMerge (db : Workspace) (sourceID targetID : Uuid) : Bool :=
  (db.contact sourceID).any fun source => (db.contact targetID).any fun target =>
    !source.2.isGroup && !target.2.isGroup && source.2.mergedIntoContactID.isNone && target.2.mergedIntoContactID.isNone

def SpineEndpoint.isOf (contactID : Uuid) (f : SpineEndpoint) : Bool := decide (f.contactID = some contactID)

def sharedIdentity (sourceID targetID : Uuid) (f : SpineEndpoint) : Bool :=
  (f.isOf sourceID || f.isOf targetID) && !mergeableEndpointKinds.contains f.endpointKind

def SpineEndpoint.give (contactID : Uuid) (f : SpineEndpoint) : SpineEndpoint := { f with contactID := some contactID }

/-- `UPDATE contact_endpoints SET contact_id`, for each of the endpoints. -/
def giveEndpoints (endpoints : List Uuid) (contactID : Uuid) (db : SpineDb) : SpineDb :=
  { db with
    endpoints := db.endpoints.set (fun f => endpoints.contains f.id) (SpineEndpoint.give contactID)
      (keeps_endpoint _ fun _ => rfl) }

def ContactProfile.merge (into : Option Uuid) (profile : ContactProfile) : ContactProfile :=
  { profile with
    mergedIntoContactID := into
    archived := into.isSome }

def Workspace.setMerged (contactID : Uuid) (into : Option Uuid) (db : Workspace) : Workspace :=
  { db with profiles := db.profiles.put contactID ((db.profile contactID).merge into) }

def Workspace.endpointsOf (db : Workspace) (contactID : Uuid) : List Uuid :=
  (db.spine.endpoints.rows.filter (SpineEndpoint.isOf contactID)).map (·.id)

def Workspace.merged (uuids : UuidSource) (sourceID targetID : Uuid) (db : Workspace) : Workspace :=
  let event := uuids.draw (db.mergeEvents.map (·.id))
  { db with
    spine := giveEndpoints (db.endpointsOf sourceID) targetID db.spine
    mergeEvents := ⟨event, sourceID, targetID⟩ :: db.mergeEvents
    reassignments :=
      db.reassignments ++ (db.endpointsOf sourceID).map fun f => ⟨some event, f, sourceID, targetID⟩ }

def mergeContacts (uuids : UuidSource) (sourceID targetID : Uuid) (db : Workspace) : Option Workspace :=
  if sourceID = targetID then none
  else if !db.canMerge sourceID targetID then none
  else if db.spine.endpoints.rows.any (sharedIdentity sourceID targetID) then none
  else some ((db.merged uuids sourceID targetID).setMerged sourceID (some targetID))

/-! ### Reversing a merge -/

def Workspace.mergeEvent (db : Workspace) (id : Uuid) : Option MergeEvent := db.mergeEvents.find? (·.id = id)

def Workspace.moved (db : Workspace) (event : Uuid) : List Reassignment :=
  db.reassignments.filter (·.mergeEventID = some event)

def Workspace.restore (target : Uuid) (record : Reassignment) (db : Workspace) : Workspace :=
  { db with
    spine := giveEndpoints [record.contactEndpointID] record.previousContactID db.spine
    reassignments := db.reassignments ++ [⟨none, record.contactEndpointID, target, record.previousContactID⟩] }

/-- Endpoints that are still where the merge put them go back. -/
def Workspace.restoreAll (target : Uuid) : List Reassignment → Workspace → Workspace
  | [], db => db
  | record :: records, db =>
    restoreAll target records
      (if db.spine.contactOf record.contactEndpointID = some target then db.restore target record else db)

def Workspace.isReversible (db : Workspace) (event : MergeEvent) : Bool :=
  (db.contact event.sourceContactID).any fun source =>
    decide (source.2.mergedIntoContactID = some event.targetContactID)

def unmergeContacts (mergeEventID : Uuid) (db : Workspace) : Option Workspace :=
  (db.mergeEvent mergeEventID).bind fun event =>
    if db.isReversible event then
      some ((db.restoreAll event.targetContactID (db.moved event.id)).setMerged event.sourceContactID none)
    else none

end TeamInbox.Channels
