import TeamInbox.Lib.Calls
import Mathlib.Data.String.Basic

/-!
# TeamInbox.Media.AttachmentFetch — the fetch of an attachment

`dispatchNextChannelAttachmentFetch` claims a pending attachment under a lease; `fetchClaim` downloads the file,
uploads it as an object of its own, and stores the object with the attachment and its message in one transaction that
only the holder of the lease can make.  A fetch may fail at every statement, and crash.  Meanwhile the provider's
`message.upsert` events come again: an attachment of the Telegram adapter is always pending and has no object.

One attachment of one message.  `finished` are the objects of the fetches that have come to their end, and `claims`
counts the claims since an event has made the attachment pending.
-/

namespace TeamInbox.Media

open TeamInbox.Lib

def maxFetchAttempts : ℕ := 6

def fetchLease : ℕ := 60000

inductive AttachmentStatus
  | pending
  | available
  | failed
  | deleted
  deriving DecidableEq

structure FetchLease where
  token : ℕ
  expiresAt : ℕ
  deriving DecidableEq

/-- A row of `message_attachments`; an object is its number. -/
structure AttachmentRow where
  providerAttachmentID : Option String
  fileName : Option String
  contentType : Option String
  byteSize : Option ℕ
  storageURI : Option ℕ
  status : AttachmentStatus
  errorCode : Option String
  fetchAttempts : ℕ
  nextFetchAt : ℕ
  lease : Option FetchLease
  deriving DecidableEq

structure MediaMessage where
  mediaURL : Option ℕ
  mediaMimeType : Option String
  mediaSize : Option ℕ
  downloadCompleted : Bool
  providerOccurredAt : ℕ
  deriving DecidableEq

/-- `NormalizedAttachment`. -/
structure NormalizedAttachment where
  providerAttachmentID : Option String
  fileName : Option String
  contentType : Option String
  byteSize : Option ℕ
  storageURI : Option ℕ
  status : AttachmentStatus
  errorCode : Option String
  deriving DecidableEq

structure FetchDb where
  message : Option MediaMessage
  attachment : Option AttachmentRow
  /-- the next object, and those that are deleted -/
  nextObject : ℕ
  deleted : List ℕ
  nextToken : ℕ
  finished : List ℕ
  claims : ℕ

/-! ### Events -/

structure TelegramFile where
  fileID : String
  fileName : Option String
  mimeType : Option String
  fileSize : Option ℕ
  deriving DecidableEq

/-- `normalizeAttachments` of the Telegram adapter. -/
def normalizeAttachments (file : TelegramFile) : NormalizedAttachment :=
  { providerAttachmentID := some file.fileID
    fileName := file.fileName
    contentType := file.mimeType
    byteSize := file.fileSize
    storageURI := none
    status := .pending
    errorCode := none }

/-- A `message.upsert` event of the adapter. -/
structure TelegramUpsert where
  occurredAt : ℕ
  now : ℕ
  file : Option TelegramFile
  deriving DecidableEq

/-- The row `replaceAttachments` inserts. -/
def newAttachment (now : ℕ) (a : NormalizedAttachment) : AttachmentRow :=
  { providerAttachmentID := a.providerAttachmentID
    fileName := a.fileName
    contentType := a.contentType
    byteSize := a.byteSize
    storageURI := a.storageURI
    status := a.status
    errorCode := a.errorCode
    fetchAttempts := 0
    nextFetchAt := now
    lease := none }

/-- Its `ON CONFLICT DO UPDATE`: an available attachment does not become pending, and the fetch columns stay. -/
def updatedAttachment (a : NormalizedAttachment) (r : AttachmentRow) : AttachmentRow :=
  { r with
    providerAttachmentID := a.providerAttachmentID
    fileName := a.fileName
    contentType := a.contentType
    byteSize := a.byteSize
    storageURI := if a.storageURI.isSome then a.storageURI else r.storageURI
    status := if r.status = .available ∧ a.status = .pending then r.status else a.status
    errorCode := if a.errorCode.isSome then a.errorCode else r.errorCode }

def replaceAttachments (now : ℕ) (a : NormalizedAttachment) (s : FetchDb) : FetchDb :=
  match s.attachment with
  | none => { s with attachment := some (newAttachment now a), claims := 0 }
  | some r =>
    { s with
      attachment := some (updatedAttachment a r)
      claims := if r.status ≠ .pending ∧ (updatedAttachment a r).status = .pending then 0 else s.claims }

/-- `applyMessageUpsert`, as far as it concerns the media: an event that is older than what is stored does nothing, and
the media columns of a stored message stay. -/
def applyMessageUpsert (e : TelegramUpsert) (s : FetchDb) : FetchDb :=
  let attachments := e.file.map normalizeAttachments
  let replaced := fun s => match attachments with
    | some a => replaceAttachments e.now a s
    | none => s
  match s.message with
  | some m =>
    if e.occurredAt < m.providerOccurredAt then s
    else replaced { s with message := some { m with providerOccurredAt := e.occurredAt } }
  | none => replaced
    { s with
      message := some
        { mediaURL := attachments.bind NormalizedAttachment.storageURI
          mediaMimeType := attachments.bind NormalizedAttachment.contentType
          mediaSize := attachments.bind NormalizedAttachment.byteSize
          downloadCompleted := false
          providerOccurredAt := e.occurredAt } }

/-! ### Fetches -/

structure AttachmentClaim where
  providerAttachmentID : String
  fileName : Option String
  contentType : Option String
  attempts : ℕ
  leaseToken : ℕ
  deriving DecidableEq

structure DownloadedFile where
  contentType : Option String
  size : ℕ
  deriving DecidableEq

def octetStream : String := "application/octet-stream"

def activeType (type : String) : Bool :=
  type.startsWith "image/svg" || type.endsWith "+xml" || type.startsWith "text/" ||
    decide (1 < (type.splitOn "javascript").length) || decide (1 < (type.splitOn "ecmascript").length)

def inertType (type : String) : Bool :=
  type.startsWith "image/" || type.startsWith "audio/" || type.startsWith "video/" ||
    decide (type = "application/pdf") || decide (type = octetStream)

def storedContentType (candidates : List (Option String)) : String :=
  (candidates.findSome? fun candidate => candidate.bind fun given =>
    let type := ((given.splitOn ";").headD "").trimAscii.toString.toLower
    if type = "" ∨ activeType type ∨ ¬ inertType type then none else some type).getD octetStream

inductive StoreOutcome
  | done
  | fails
  /-- the answer to the commit is lost -/
  | lost
  deriving DecidableEq

inductive FetchStage
  | idle
  | claimed (c : AttachmentClaim)
  | downloaded (c : AttachmentClaim) (d : DownloadedFile)
  | uploaded (c : AttachmentClaim) (d : DownloadedFile) (object : ℕ)
  /-- the lease was not there any more -/
  | unstored (c : AttachmentClaim) (object : ℕ)
  /-- an error was thrown, after the upload of the object if there is one -/
  | failing (c : AttachmentClaim) (permanent : Bool) (object : Option ℕ)
  deriving DecidableEq

inductive FetchAction
  | claim (now : ℕ)
  | download (d : DownloadedFile)
  | upload
  | store (outcome : StoreOutcome)
  | deleteMedia
  /-- the credential, the download or the upload: `permanent` if the message says so -/
  | throw (permanent : Bool)
  /-- the failure is recorded, unless that fails as well -/
  | record (now : ℕ) (works : Bool)
  | crash
  deriving DecidableEq

def claimable (now : ℕ) (r : AttachmentRow) : Bool :=
  decide (r.status = .pending) && r.providerAttachmentID.isSome && decide (r.nextFetchAt ≤ now) &&
    r.lease.all fun l => decide (l.expiresAt < now)

/-- The transaction of `dispatchNextChannelAttachmentFetch`. -/
def claimAttachment (now : ℕ) (s : FetchDb) : Option (FetchDb × FetchStage) :=
  s.attachment.bind fun r => r.providerAttachmentID.bind fun id =>
    if claimable now r then
      some
        ({ s with
            attachment := some
              { r with
                fetchAttempts := r.fetchAttempts + 1
                lease := some ⟨s.nextToken, now + fetchLease⟩ }
            nextToken := s.nextToken + 1
            claims := s.claims + 1 },
          .claimed ⟨id, r.fileName, r.contentType, r.fetchAttempts + 1, s.nextToken⟩)
    else none

/-- `WHERE fetch_lease_token = …`. -/
def holdsLease (c : AttachmentClaim) (s : FetchDb) : Bool :=
  s.attachment.any fun r => r.lease.any fun l => decide (l.token = c.leaseToken)

def storeObject (c : AttachmentClaim) (d : DownloadedFile) (object : ℕ) (s : FetchDb) : FetchDb :=
  let contentType := storedContentType [d.contentType, c.contentType]
  { s with
    attachment := s.attachment.map fun r =>
      { r with
        storageURI := some object
        contentType := some contentType
        byteSize := some d.size
        status := .available
        errorCode := none
        lease := none }
    message := s.message.map fun m =>
      { m with
        mediaURL := some object
        mediaMimeType := some contentType
        mediaSize := some d.size
        downloadCompleted := true } }

def finish (object : Option ℕ) (s : FetchDb) : FetchDb := { s with finished := object.toList ++ s.finished }

def storeFetched (c : AttachmentClaim) (d : DownloadedFile) (object : ℕ) (s : FetchDb) :
    StoreOutcome → FetchDb × FetchStage
  | .done =>
    if holdsLease c s then (finish (some object) (storeObject c d object s), .idle) else (s, .unstored c object)
  | .fails => (s, .failing c false (some object))
  | .lost => (if holdsLease c s then storeObject c d object s else s, .failing c false (some object))

/-- `Math.min(15 * 60_000, 5_000 * 2 ** Math.min(claim.attempts, 8))`. -/
def fetchBackoff (attempts : ℕ) : ℕ := min (15 * 60000) (5000 * 2 ^ min attempts 8)

/-- The update of the `catch` block. -/
def recordFailure (now : ℕ) (c : AttachmentClaim) (permanent : Bool) (s : FetchDb) : FetchDb :=
  if holdsLease c s then
    { s with
      attachment := s.attachment.map fun r =>
        { r with
          status := if permanent ∨ maxFetchAttempts ≤ c.attempts then .failed else .pending
          errorCode := some (if permanent then "attachment_too_large_or_invalid" else "attachment_fetch_failed")
          nextFetchAt := now + fetchBackoff c.attempts
          lease := none } }
  else s

def fetchAct (_ : ℕ) (s : FetchDb) : FetchStage → FetchAction → Option (FetchDb × FetchStage)
  | .idle, .claim now => claimAttachment now s
  | .claimed c, .download d => some (s, .downloaded c d)
  | .downloaded c d, .upload => some ({ s with nextObject := s.nextObject + 1 }, .uploaded c d s.nextObject)
  | .uploaded c d object, .store outcome => some (storeFetched c d object s outcome)
  | .unstored _ object, .deleteMedia =>
    some (finish (some object) { s with deleted := object :: s.deleted }, .idle)
  | .claimed c, .throw permanent | .downloaded c _, .throw permanent => some (s, .failing c permanent none)
  | .failing c permanent object, .record now works =>
    some (finish object (if works then recordFailure now c permanent s else s), .idle)
  | .idle, .crash => none
  | _, .crash => some (s, .idle)
  | _, _ => none

def fetchSystem : Machine FetchDb FetchStage FetchAction TelegramUpsert where
  act := fetchAct
  env e s := some (applyMessageUpsert e s)

end TeamInbox.Media
