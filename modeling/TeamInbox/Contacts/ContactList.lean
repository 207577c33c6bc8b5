import Mathlib.Algebra.Ring.Int.Defs
import TeamInbox.Broadcast.Audience
import TeamInbox.Contacts.Merge
import TeamInbox.Lib.Sql

/-!
# TeamInbox.Contacts.ContactList — the rows and the total of the contact list

`queryContactPage`: the row query and the count query, each with its own filters.  Both join a contact's live
conversation, its active assignment and its state rows; what has been merged into the contact is aggregated in the row
query (`grp`) and looked up by `EXISTS` in the count query.  Joins by primary key after the page find their row, and
what they add to it but the account is left out.  `like` is what `ILIKE` does with a text and a pattern.
-/

namespace TeamInbox.Contacts

open TeamInbox.Lib TeamInbox.Lib.Sql TeamInbox.Broadcast

abbrev Text := List Char

/-! ### The tables -/

structure ContactRow where
  id : ℕ
  whatsappConnectionId : Option ℕ
  jid : Option Text
  phoneNumber : Option Text
  pushName : Option Text
  username : Option Text
  customName : Option Text
  isGroup : Option Bool
  mergedIntoContactId : Option ℕ
  deriving DecidableEq

structure ConversationRow where
  id : ℕ
  channelAccountId : ℕ
  legacyContactId : Option ℕ
  lastMessageAt : Option ℕ
  archivedAt : Option ℕ
  deriving DecidableEq

inductive WorkflowStatus
  | open | pending | resolved
  deriving DecidableEq

structure ConversationStateRow where
  contactId : Option ℕ
  conversationId : Option ℕ
  lastMessageAt : Option ℕ
  unreadCount : ℤ
  status : WorkflowStatus
  deriving DecidableEq

structure AssignmentRow where
  contactId : Option ℕ
  assignedTo : ℕ
  unassignedAt : Option ℕ
  deriving DecidableEq

structure MessageRow where
  conversationId : Option ℕ
  contactId : Option ℕ
  timestamp : ℕ

structure ContactTagRow where
  contactId : ℕ
  tagId : ℕ

def AssignmentRow.active (a : AssignmentRow) : Option ℕ := if a.unassignedAt = none then a.contactId else none

structure InboxDb where
  contacts : Indexed [fun c : ContactRow => some c.id]
  conversations : Indexed [fun v : ConversationRow => some v.id, fun v => v.legacyContactId]
  states : Indexed [fun s : ConversationStateRow => s.contactId, fun s => s.conversationId]
  assignments : Indexed [AssignmentRow.active]
  messages : List MessageRow
  tags : List ContactTagRow

/-- Ids and texts that are not given, or empty, ask for nothing. -/
structure ListOptions where
  search : Text
  includeGroups : Bool
  connectionId : Option ℕ
  channelAccountId : Option ℕ
  tagIds : List ℕ
  assignedToMe : Bool
  unassigned : Bool
  userId : Option ℕ
  restrictToAssigned : Bool
  /-- `none` is `"all"` -/
  conversationStatus : Option WorkflowStatus
  unreadOnly : Bool

/-! ### The joins -/

/-- The columns of `conv`, `csc` and `csl`. -/
structure ThreadColumns where
  conv : Option ConversationRow
  csc : Option ConversationStateRow
  csl : Option ConversationStateRow

namespace ThreadColumns

variable (t : ThreadColumns)

/-- `COALESCE(csc.unread_count, csl.unread_count, 0)` -/
def unreadCount : ℤ := ((t.csc.map (·.unreadCount)).or (t.csl.map (·.unreadCount))).getD 0

/-- `COALESCE(csc.status, csl.status, 'resolved')` -/
def status : WorkflowStatus := ((t.csc.map (·.status)).or (t.csl.map (·.status))).getD .resolved

/-- `COALESCE(conv.channel_account_id, c.whatsapp_connection_id)` -/
def account (c : ContactRow) : Option ℕ := (t.conv.map (·.channelAccountId)).or c.whatsappConnectionId

end ThreadColumns

structure Joined where
  c : ContactRow
  ca : Option AssignmentRow
  thread : ThreadColumns

/-- What the query knows of the contacts merged into one. -/
structure MergedGroup where
  chatCount : ℕ
  unreadCount : ℤ
  lastMessageAt : Option ℕ
  accountIds : List ℕ

structure ListedContact where
  id : ℕ
  lastMessageAt : Option ℕ
  unreadCount : ℤ
  chatCount : ℕ
  accountIds : List ℕ
  deriving DecidableEq

def liveConversation (contactId : ℕ) (v : ConversationRow) : Bool :=
  decide (v.legacyContactId = some contactId) && v.archivedAt.isNone

def stateOfConversation (conv : Option ConversationRow) (s : ConversationStateRow) : Bool :=
  conv.any fun v => decide (s.conversationId = some v.id)

def stateOfContact (conv : Option ConversationRow) (contactId : ℕ) (s : ConversationStateRow) : Bool :=
  conv.isNone && decide (s.contactId = some contactId)

/-- `GREATEST`, which passes over nulls. -/
def greatest (a b : Option ℕ) : Option ℕ := (a.toList ++ b.toList).max?

/-- `c.jid IS NULL OR c.jid NOT LIKE '%@broadcast'` -/
def notBroadcast (jid : Option Text) : Condition :=
  or (some jid.isNone) (not (jid.map fun jid => "@broadcast".toList.isSuffixOf jid))

def contains (search : Text) : Text := '%' :: search ++ ['%']

def phoneSearchDigits (search : Text) : Option Text :=
  let trimmed := trim search
  let digits := trimmed.filter Char.isDigit
  if digits.length < 3 ∨ digits = trimmed then none else some digits

/-- `search.trim().replace(/^@+/, "") || search` -/
def usernameSearch (search : Text) : Text :=
  let username := (trim search).dropWhile (· == '@')
  if username = [] then search else username

namespace InboxDb

variable (db : InboxDb)

def threadJoin (c : ContactRow) : List ThreadColumns :=
  (leftJoin db.conversations.rows (liveConversation c.id)).flatMap fun conv =>
    (leftJoin db.states.rows (stateOfConversation conv)).flatMap fun csc =>
      (leftJoin db.states.rows (stateOfContact conv c.id)).map fun csl => ⟨conv, csc, csl⟩

def assignmentJoin (c : ContactRow) : List (Option AssignmentRow) :=
  leftJoin db.assignments.rows fun a => decide (a.active = some c.id)

/-- The joins of a contact, in both queries and in the `EXISTS` of the count query. -/
def joined (c : ContactRow) : List Joined :=
  (db.assignmentJoin c).flatMap fun ca => (db.threadJoin c).map fun thread => ⟨c, ca, thread⟩

def mergedInto (contactId : ℕ) : List ContactRow :=
  db.contacts.rows.filter fun mc => decide (mc.mergedIntoContactId = some contactId)

/-- The row of `grp` for a contact, if there is one. -/
def grp (contactId : ℕ) : Option MergedGroup :=
  let rows := (db.mergedInto contactId).flatMap fun mc => (db.threadJoin mc).map fun t => (mc, t)
  if rows.isEmpty then none else some
    { chatCount := rows.length
      unreadCount := (rows.map fun r => r.2.unreadCount).sum
      lastMessageAt := (rows.filterMap fun r =>
        (r.2.conv.bind (·.lastMessageAt)).or (r.2.csl.bind (·.lastMessageAt))).max?
      accountIds := (rows.filterMap fun r => r.2.account r.1).dedup }

/-! ### The row query -/

section RowQuery

variable (like : Text → Text → Bool) (o : ListOptions)

def ilike (column : Option Text) (pattern : Text) : Condition := column.map fun text => like text pattern

def buildSearchClause (c : ContactRow) : Condition :=
  let searchValue := contains o.search
  let phoneDigitsClause := (phoneSearchDigits o.search).elim (some false) fun digits =>
    ilike like c.phoneNumber (contains digits)
  or (ilike like c.pushName searchValue) (or (ilike like c.username (contains (usernameSearch o.search)))
    (or (ilike like c.customName searchValue) (or (ilike like c.phoneNumber searchValue) phoneDigitsClause)))

/-- The active assignments of the contacts merged into one. -/
def mergedAssignments (contactId : ℕ) : List AssignmentRow :=
  (db.mergedInto contactId).flatMap fun mc => db.assignments.rows.filter fun a => decide (a.active = some mc.id)

def assignedInGroup (r : Joined) (userId : ℕ) : Condition :=
  or (eq (r.ca.map (·.assignedTo)) (some userId))
    (ex (db.mergedAssignments r.c.id) fun mca => eq (some mca.assignedTo) (some userId))

def buildAssignmentClause (r : Joined) : List Condition :=
  match o.userId, o.restrictToAssigned, o.assignedToMe, o.unassigned with
  | some userId, true, _, _ => [db.assignedInGroup r userId]
  | some userId, _, true, _ => [db.assignedInGroup r userId]
  | _, _, _, true => [and (some r.ca.isNone) (not (ex (db.mergedAssignments r.c.id) fun _ => some true))]
  | _, _, _, _ => []

def buildContactWhereClause (r : Joined) : Condition :=
  let grp := db.grp r.c.id
  Sql.all ([some r.c.mergedIntoContactId.isNone, notBroadcast r.c.jid] ++
    (if o.search = [] then [] else [buildSearchClause like o r.c]) ++
    (if o.includeGroups then [] else [eq r.c.isGroup (some false)]) ++
    (o.connectionId.toList.map fun connectionId => or (eq r.c.whatsappConnectionId (some connectionId))
      (ex (db.mergedInto r.c.id) fun mc => eq mc.whatsappConnectionId (some connectionId))) ++
    (o.channelAccountId.toList.map fun account => or (eq (r.thread.account r.c) (some account))
      (grp.map fun g => g.accountIds.any fun id => id == account)) ++
    (if o.tagIds = [] then [] else [ex db.tags fun ct => and (eq (some ct.contactId) (some r.c.id))
      (some (o.tagIds.contains ct.tagId))]) ++
    (o.conversationStatus.toList.map fun status => eq (some r.thread.status) (some status)) ++
    (if o.unreadOnly then [or (some (decide (0 < r.thread.unreadCount)))
      (some (decide (0 < (grp.map (·.unreadCount)).getD 0)))] else []) ++
    db.buildAssignmentClause o r)

def selected : List Joined :=
  (db.contacts.rows.flatMap db.joined).filter fun r => db.buildContactWhereClause like o r == some true

/-- `COALESCE(lmc.timestamp, lml.timestamp)` -/
def lastMessage (r : Joined) : Option ℕ :=
  ((db.messages.filter fun m => match r.thread.conv with
    | some v => decide (m.conversationId = some v.id)
    | none => decide (m.contactId = some r.c.id)).map (·.timestamp)).max?

def listed (r : Joined) : ListedContact :=
  let grp := db.grp r.c.id
  { id := r.c.id
    lastMessageAt := greatest (db.lastMessage r) (grp.bind (·.lastMessageAt))
    unreadCount := r.thread.unreadCount + (grp.map (·.unreadCount)).getD 0
    chatCount := 1 + (grp.map (·.chatCount)).getD 0
    accountIds := (grp.map (·.accountIds)).getD [] ++ (r.thread.account r.c).toList }

def contactRows : List ListedContact := (db.selected like o).map db.listed

end RowQuery

/-! ### The count query -/

section CountQuery

variable (like : Text → Text → Bool) (o : ListOptions)

/-- `mergedGroup(predicate)` -/
def mergedGroup (contactId : ℕ) (predicate : Joined → Condition) : Condition :=
  ex ((db.mergedInto contactId).flatMap db.joined) predicate

def countSearch (c : ContactRow) : List Condition :=
  [ilike like c.pushName (contains o.search), ilike like c.username (contains (usernameSearch o.search)),
    ilike like c.customName (contains o.search), ilike like c.phoneNumber (contains o.search)] ++
    ((phoneSearchDigits o.search).toList.map fun digits => ilike like c.phoneNumber (contains digits))

def countAssignment (r : Joined) : List Condition :=
  match (if o.restrictToAssigned || o.assignedToMe then o.userId else none), o.unassigned with
  | some userId, _ => [or (eq (r.ca.map (·.assignedTo)) (some userId))
      (db.mergedGroup r.c.id fun m => eq (m.ca.map (·.assignedTo)) (some userId))]
  | none, true => [some r.ca.isNone, not (db.mergedGroup r.c.id fun m => some m.ca.isSome)]
  | none, false => []

def countWhere (r : Joined) : Condition :=
  Sql.all ([some r.c.mergedIntoContactId.isNone, notBroadcast r.c.jid] ++
    (if o.includeGroups then [] else [eq r.c.isGroup (some false)]) ++
    (o.connectionId.toList.map fun connectionId => or (eq r.c.whatsappConnectionId (some connectionId))
      (db.mergedGroup r.c.id fun m => eq m.c.whatsappConnectionId (some connectionId))) ++
    (o.channelAccountId.toList.map fun account => or (eq (r.thread.account r.c) (some account))
      (db.mergedGroup r.c.id fun m => eq (m.thread.account m.c) (some account))) ++
    (if o.search = [] then [] else [(countSearch like o r.c).foldr Sql.or (some false)]) ++
    (if o.tagIds = [] then [] else [some (((db.tags.filter fun ct => o.tagIds.contains ct.tagId).map
      (·.contactId)).contains r.c.id)]) ++
    db.countAssignment o r ++
    (o.conversationStatus.toList.map fun status => eq (some r.thread.status) (some status)) ++
    (if o.unreadOnly then [or (some (decide (0 < r.thread.unreadCount)))
      (db.mergedGroup r.c.id fun m => some (decide (0 < m.thread.unreadCount)))] else []))

def total : ℕ := ((db.contacts.rows.flatMap db.joined).filter fun r => db.countWhere like o r == some true).length

end CountQuery

/-- `ORDER BY last_message_at DESC NULLS LAST, id DESC`: the row does not have to follow the other. -/
def before (a b : ListedContact) : Prop :=
  (match a.lastMessageAt, b.lastMessageAt with
  | some x, some y => decide (y < x ∨ (x = y ∧ b.id ≤ a.id))
  | some _, none => true
  | none, some _ => false
  | none, none => decide (b.id ≤ a.id)) = true

instance (a b : ListedContact) : Decidable (before a b) := inferInstanceAs (Decidable (_ = true))

end InboxDb

end TeamInbox.Contacts
