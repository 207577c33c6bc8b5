import Mathlib.Algebra.Group.Nat.Defs
import Mathlib.Data.List.Dedup
import Mathlib.Data.List.Sort
import TeamInbox.Lib.Calls
import TeamInbox.Lib.Locks

/-!
# TeamInbox.Media.Cleanup — stored media objects, and the queue that reclaims them

A writer looks whether the object is there, and then, in one transaction, locks its key, refuses where a deletion is
intended, and inserts the row that refers to it.  The cleanup queue claims items under a lease, looks for rows that still
refer to them, commits the intent to delete under the same lock, deletes the object and removes the item.  Between two
statements anything may happen; a call may crash anywhere, and its lease runs out.

Items of the other kinds are left out.  Rows of schedules and bulk jobs are those that are still to be dispatched.
`condemned` and `queued` are for the proofs.
-/

namespace TeamInbox.Media

open TeamInbox.Lib

/-! ### Data -/

inductive MediaColumn
  | messageMedia
  | messageSenderAvatar
  | contactPicture
  | statusMedia
  | scheduledMedia
  | bulkJobMedia
  deriving DecidableEq

structure MediaRow where
  column : MediaColumn
  reference : String
  deriving DecidableEq

/-- A row of `purge_cleanup_items`. -/
structure CleanupItem where
  id : ℕ
  connectionID : String
  reference : String
  attempts : ℕ
  lastError : Option String
  mediaKey : Option String
  nextAttemptAt : ℕ
  deriving DecidableEq

structure ClaimedItem where
  id : ℕ
  reference : String
  attempts : ℕ
  lastError : Option String
  deriving DecidableEq

structure MediaStore where
  rows : List MediaRow
  items : List CleanupItem
  nextID : ℕ
  /-- `companies.logo_key` -/
  logoKey : Option String
  /-- the objects that have been deleted -/
  deleted : List String
  locks : Locks ℤ
  condemned : List (String × ℕ)
  /-- the references that have ever been queued -/
  queued : List String

def MediaStore.start (rows : List MediaRow) (logoKey : Option String) : MediaStore :=
  ⟨rows, [], 0, logoKey, [], .unlocked, [], []⟩

structure MediaNaming where
  /-- `resolveMediaKeyForCompany`, `none` where it throws -/
  resolve : String → Option String
  hashtext : String → ℤ

def CLAIM_LEASE_MS : ℕ := 5 * 60000

def MEDIA_SETTLE_MS : ℕ := 60000

def RETRY_BASE_MS : ℕ := 60000

def RETRY_CEILING_MS : ℕ := 86400000

def MEDIA_DELETING_MARKER : String := "deleting"

def SETTLE_MARKER : String := "awaiting-settle"

def getPurgeCleanupRetryDelayMs (attempts : ℕ) : ℕ := min (RETRY_BASE_MS * 2 ^ min attempts 20) RETRY_CEILING_MS

/-! ### Statements -/

namespace MediaStore

variable (naming : MediaNaming)

/-- `enqueueMediaCleanup` -/
def enqueue (connectionID reference : String) (s : MediaStore) : MediaStore :=
  if s.items.any fun i => decide (i.connectionID = connectionID) && decide (i.reference = reference) then
    { s with queued := reference :: s.queued }
  else
    { s with
      items := ⟨s.nextID, connectionID, reference, 0, none, none, 0⟩ :: s.items
      nextID := s.nextID + 1
      queued := reference :: s.queued }

def isDue (now : ℕ) (ids : List ℕ) (i : CleanupItem) : Bool := decide (i.nextAttemptAt ≤ now) && ids.contains i.id

/-- The due items among `ids` that are leased. -/
def claimed (now : ℕ) (ids : List ℕ) (s : MediaStore) : List ClaimedItem :=
  (s.items.filter (isDue now ids)).map fun i => ⟨i.id, i.reference, i.attempts, i.lastError⟩

def updateItems (ids : List ℕ) (f : CleanupItem → CleanupItem) (s : MediaStore) : MediaStore :=
  { s with items := s.items.map fun i => if ids.contains i.id then f i else i }

def lease (now : ℕ) (ids : List ℕ) (s : MediaStore) : MediaStore :=
  s.updateItems ((s.claimed now ids).map (·.id)) fun i => { i with nextAttemptAt := now + CLAIM_LEASE_MS }

def removeItems (items : List ClaimedItem) (s : MediaStore) : MediaStore :=
  { s with items := s.items.filter fun i => !(items.map (·.id)).contains i.id }

def deferForSettle (now : ℕ) (items : List ClaimedItem) (s : MediaStore) : MediaStore :=
  s.updateItems (items.map (·.id)) fun i =>
    { i with
      nextAttemptAt := now + MEDIA_SETTLE_MS
      lastError := some SETTLE_MARKER }

def recordFailure (now : ℕ) (message : String) (item : ClaimedItem) (s : MediaStore) : MediaStore :=
  s.updateItems [item.id] fun i =>
    { i with
      attempts := item.attempts + 1
      nextAttemptAt := now + getPurgeCleanupRetryDelayMs item.attempts
      lastError := if i.lastError = some MEDIA_DELETING_MARKER then i.lastError else some message }

def recordFailures (now : ℕ) (message : String) (items : List ClaimedItem) (s : MediaStore) : MediaStore :=
  items.foldl (fun s item => s.recordFailure now message item) s

def intend (item : ClaimedItem) (s : MediaStore) : MediaStore :=
  s.updateItems [item.id] fun i =>
    { i with
      mediaKey := naming.resolve item.reference
      lastError := some MEDIA_DELETING_MARKER }

/-- `findMediaDeletionIntents` finds the key. -/
def intended (key : String) (s : MediaStore) : Bool :=
  s.items.any fun i => decide (i.lastError = some MEDIA_DELETING_MARKER) && decide (i.mediaKey = some key)

end MediaStore

/-! ### The census -/

inductive CensusQuery
  | column (c : MediaColumn)
  /-- the logo of the company, by its key -/
  | logo
  deriving DecidableEq

def censusQueries : List CensusQuery :=
  [.column .messageMedia, .column .messageSenderAvatar, .column .contactPicture, .column .statusMedia,
    .column .scheduledMedia, .column .bulkJobMedia, .logo]

def MediaStore.finds (naming : MediaNaming) (s : MediaStore) (reference : String) : CensusQuery → Bool
  | .column c => s.rows.any fun row => decide (row.column = c) && decide (row.reference = reference)
  | .logo => s.logoKey.isSome && decide (naming.resolve reference = s.logoKey)

def MediaStore.look (naming : MediaNaming) (items : List ClaimedItem) (query : CensusQuery) (found : List String)
    (s : MediaStore) : List String :=
  found ++ (items.map (·.reference)).filter fun reference => s.finds naming reference query

/-! ### Calls -/

structure CleanupWork where
  owned : List ClaimedItem
  settled : List ClaimedItem
  deferring : List ClaimedItem
  toDelete : List ClaimedItem
  failed : List ClaimedItem
  message : String
  deriving DecidableEq

inductive MediaCall
  | idle
  /-- a writer, with the keys it has still to look for -/
  | validating (rows : List MediaRow) (todo : List String)
  /-- in its transaction, with the keys it has still to lock -/
  | reserving (rows : List MediaRow) (todo : List String)
  | inserting (rows : List MediaRow)
  /-- a processor, with the items it has leased -/
  | claimed (items : List ClaimedItem)
  | looking (owned : List ClaimedItem) (todo : List CensusQuery) (found : List String)
  | locking (work : CleanupWork) (todo : List String)
  | rechecking (work : CleanupWork) (todo : List CensusQuery) (found : List String)
  | deleting (work : CleanupWork) (todo : List ClaimedItem) (done : List String)
  | removing (work : CleanupWork)
  | deferring (work : CleanupWork)
  | recording (items : List ClaimedItem) (message : String)
  deriving DecidableEq

inductive DeleteOutcome
  | deleted
  | failed
  /-- the object is gone, but the answer has been lost -/
  | unknown
  deriving DecidableEq

inductive MediaAction
  | write (rows : List MediaRow)
  | head (exist : Bool)
  | claim (now : ℕ) (ids : List ℕ)
  /-- the next statement, or the commit -/
  | next (now : ℕ)
  | deleteObject (outcome : DeleteOutcome) (message : String)
  /-- a statement of a processor fails -/
  | fail (message : String)
  | crash
  deriving DecidableEq

section Steps

variable (naming : MediaNaming)

/-- `ownedMediaKeys` -/
def ownedMediaKeys (references : List String) : List String :=
  (references.filterMap naming.resolve).dedup.insertionSort (· ≤ ·)

def rowKeys (rows : List MediaRow) : List String := ownedMediaKeys naming (rows.map (·.reference))

def itemKeys (items : List ClaimedItem) : List String := ownedMediaKeys naming (items.map (·.reference))

def MediaStore.condemn (p : ℕ) (items : List ClaimedItem) (s : MediaStore) : MediaStore :=
  { s with
    condemned := (s.condemned.filter fun c => decide (c.2 ≠ p)) ++ (itemKeys naming items).map fun key => (key, p) }

def MediaStore.release (p : ℕ) (s : MediaStore) : MediaStore := { s with locks := s.locks.release p }

def MediaStore.lock (p : ℕ) (key : String) (s : MediaStore) : Option MediaStore :=
  (s.locks.take p (naming.hashtext key)).map fun locks => { s with locks := locks }

def MediaStore.insert (rows : List MediaRow) (s : MediaStore) : MediaStore := { s with rows := rows ++ s.rows }

def ClaimedItem.hasSettled (c : ClaimedItem) : Bool :=
  decide (c.lastError = some SETTLE_MARKER) || decide (c.lastError = some MEDIA_DELETING_MARKER)

def sortOut (owned : List ClaimedItem) (found : List String) : CleanupWork where
  owned := owned
  settled := owned.filter fun c => found.contains c.reference
  deferring := owned.filter fun c => !found.contains c.reference && !c.hasSettled
  toDelete := owned.filter fun c => !found.contains c.reference && c.hasSettled
  failed := []
  message := ""

/-- An item another row refers to by now has an owner. -/
def CleanupWork.committed (work : CleanupWork) (found : List String) : List ClaimedItem :=
  work.toDelete.filter fun c => !found.contains c.reference

def CleanupWork.recheck (work : CleanupWork) (found : List String) : CleanupWork :=
  { work with settled := work.settled ++ work.toDelete.filter fun c => found.contains c.reference }

def CleanupWork.settle (work : CleanupWork) (item : ClaimedItem) : CleanupWork :=
  { work with settled := work.settled ++ [item] }

def CleanupWork.failWith (work : CleanupWork) (item : ClaimedItem) (message : String) : CleanupWork :=
  { work with
    failed := work.failed ++ [item]
    message := message }

def MediaStore.deleteObject (key : String) (s : MediaStore) : MediaStore := { s with deleted := key :: s.deleted }

/-- The intents are committed, and the locks released. -/
def MediaStore.commitDeletionIntents (p : ℕ) (items : List ClaimedItem) (s : MediaStore) : MediaStore :=
  ((items.foldl (fun s item => s.intend naming item) s).release p).condemn naming p items

def writerNext (p : ℕ) (s : MediaStore) (rows : List MediaRow) : List String → Option (MediaStore × MediaCall)
  | key :: todo => (s.lock naming p key).map fun s => (s, .reserving rows todo)
  | [] =>
    if (rowKeys naming rows).any fun key => s.intended key then some (s.release p, .idle) else some (s, .inserting rows)

def mediaNext (now p : ℕ) (s : MediaStore) : MediaCall → Option (MediaStore × MediaCall)
  | .idle => none
  | .validating _ (_ :: _) => none
  | .validating rows [] => some (s, .reserving rows (rowKeys naming rows))
  | .reserving rows todo => writerNext naming p s rows todo
  | .inserting rows => some ((s.insert rows).release p, .idle)
  | .claimed items =>
    some (s.removeItems (items.filter fun c => (naming.resolve c.reference).isNone),
      .looking (items.filter fun c => (naming.resolve c.reference).isSome) censusQueries [])
  | .looking owned (query :: todo) found => some (s, .looking owned todo (s.look naming owned query found))
  | .looking owned [] found =>
    some (s, if (sortOut owned found).toDelete = [] then .removing (sortOut owned found)
      else .locking (sortOut owned found) (itemKeys naming (sortOut owned found).toDelete))
  | .locking work (key :: todo) => (s.lock naming p key).map fun s => (s, .locking work todo)
  | .locking work [] => some (s, .rechecking work censusQueries [])
  | .rechecking work (query :: todo) found =>
    some (s, .rechecking work todo (s.look naming work.toDelete query found))
  | .rechecking work [] found =>
    some (s.commitDeletionIntents naming p (work.committed found),
      .deleting (work.recheck found) (work.committed found) [])
  | .deleting work [] _ => some (s.condemn naming p [], .removing work)
  | .deleting work (item :: todo) done =>
    if (naming.resolve item.reference).any fun key => done.contains key then
      some (s.condemn naming p todo, .deleting (work.settle item) todo done)
    else none
  | .removing work => some (s.removeItems work.settled, .deferring work)
  | .deferring work => some (s.deferForSettle now work.deferring, .recording work.failed work.message)
  | .recording items message => some (s.recordFailures now message items, .idle)

/-- The object store has been asked to delete the object of the first item. -/
def deleteFirst (p : ℕ) (s : MediaStore) (outcome : DeleteOutcome) (message : String) (work : CleanupWork)
    (item : ClaimedItem) (todo : List ClaimedItem) (done : List String) (key : String) : MediaStore × MediaCall :=
  match outcome with
  | .deleted => ((s.deleteObject key).condemn naming p todo, .deleting (work.settle item) todo (key :: done))
  | .failed => (s.condemn naming p todo, .deleting (work.failWith item message) todo done)
  | .unknown => ((s.deleteObject key).condemn naming p todo, .deleting (work.failWith item message) todo done)

def mediaDelete (p : ℕ) (s : MediaStore) (outcome : DeleteOutcome) (message : String) :
    MediaCall → Option (MediaStore × MediaCall)
  | .deleting work (item :: todo) done =>
    (naming.resolve item.reference).bind fun key =>
      if done.contains key then none else some (deleteFirst naming p s outcome message work item todo done key)
  | _ => none

def mediaFail (p : ℕ) (s : MediaStore) (message : String) : MediaCall → Option (MediaStore × MediaCall)
  | .looking owned _ _ => some (s, .recording owned message)
  | .locking work _ => some (s.release p, .recording work.owned message)
  | .rechecking work _ _ => some (s.release p, .recording work.owned message)
  | .removing work => some (s, .recording work.owned message)
  | .deferring work => some (s, .recording work.owned message)
  | _ => none

/-- The transaction is rolled back, and what was to be deleted is not. -/
def mediaCrash (p : ℕ) (s : MediaStore) : MediaStore × MediaCall := ((s.release p).condemn naming p [], .idle)

def mediaAct (p : ℕ) (s : MediaStore) (x : MediaCall) : MediaAction → Option (MediaStore × MediaCall)
  | .write rows => if x = .idle then some (s, .validating rows (rowKeys naming rows)) else none
  | .head exist =>
    match x with
    | .validating rows (key :: todo) =>
      if !exist then some (s, .idle)
      else if s.deleted.contains key then none
      else some (s, .validating rows todo)
    | _ => none
  | .claim now ids => if x = .idle then some (s.lease now ids, .claimed (s.claimed now ids)) else none
  | .next now => mediaNext naming now p s x
  | .deleteObject outcome message => mediaDelete naming p s outcome message x
  | .fail message => mediaFail p s message x
  | .crash => some (mediaCrash naming p s)

structure Enqueued where
  connectionID : String
  reference : String
  deriving DecidableEq

def mediaSystem : Machine MediaStore MediaCall MediaAction Enqueued where
  act := mediaAct naming
  env := fun e s => some (s.enqueue e.connectionID e.reference)

end Steps

end TeamInbox.Media
