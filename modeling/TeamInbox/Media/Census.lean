import TeamInbox.Broadcast.Audience
import TeamInbox.Media.Cleanup

/-!
# TeamInbox.Media.Census — which references keep an object

Before an intent to delete is committed, the columns that may refer to the object are searched for the item's text.
A reference is resolved to the key of an object by the parser of URLs: a private reference names the bucket, another
URL is one of the configured storage.  Purge queues references from more columns than the census reads, and two texts
may resolve to one key.
-/

namespace TeamInbox.Media

open TeamInbox.Broadcast (trim)

/-! ### Keys of references -/

/-- What `new URL` finds in a text. -/
structure ParsedUrl where
  protocol : String
  hostname : String
  username : String
  password : String
  port : String
  pathname : List Char
  origin : String
  deriving DecidableEq

structure UrlPlatform where
  /-- `new URL`, `none` where it throws -/
  parse : String → Option ParsedUrl
  parse_empty : parse "" = none
  /-- `decodeURIComponent`, `none` where it throws -/
  decodeURIComponent : List Char → Option (List Char)
  encodeURIComponent : String → List Char

structure StorageEnv where
  BUCKET : String
  S3_ENDPOINT : String
  S3_LEGACY_ENDPOINTS : String

section Resolve

variable (platform : UrlPlatform) (env : StorageEnv)

/-- The configured endpoints; `none` where one of them is no URL. -/
def storageEndpoints : Option (List ParsedUrl) :=
  (((env.S3_ENDPOINT.toList :: env.S3_LEGACY_ENDPOINTS.toList.splitOn ',').map trim).filter (· ≠ [])).mapM fun value =>
    platform.parse (String.ofList value)

/-- `replace(/\/$/, "")` -/
def dropTrailingSlash (path : List Char) : List Char := if path.getLast? = some '/' then path.dropLast else path

/-- The key, still encoded, in the path of a reference to the bucket. -/
def encodedKey (url : ParsedUrl) : Option (List Char) :=
  if url.protocol = "s3:" then
    if url.hostname ≠ env.BUCKET ∨ url.username ≠ "" ∨ url.password ≠ "" ∨ url.port ≠ "" then none
    else some (url.pathname.dropWhile (· = '/'))
  else
    (storageEndpoints platform env).bind fun endpoints =>
    (endpoints.find? fun candidate => decide (url.origin = candidate.origin)).bind fun endpoint =>
    let bucketPrefix := dropTrailingSlash endpoint.pathname ++ '/' :: platform.encodeURIComponent env.BUCKET ++ ['/']
    if bucketPrefix <+: url.pathname then some (url.pathname.drop bucketPrefix.length) else none

/-- `/[\0-\x1f\x7f]/` -/
def isControl (c : Char) : Bool := decide (c.toNat ≤ 31) || decide (c.toNat = 127)

def ownedBy (companyId : String) (key : List Char) : Bool :=
  let tenantPrefix := "media/".toList ++ companyId.toList ++ ['/']
  decide (tenantPrefix <+: key) && decide (tenantPrefix.length < key.length) && !decide (['.', '.'] <:+: key) &&
    !key.contains '\\' && !key.any isControl

/-- `none` where it throws -/
def resolveMediaKeyForCompany (mediaUrl companyId : String) : Option String :=
  (platform.parse mediaUrl).bind fun url =>
  (encodedKey platform env url).bind fun encoded =>
  (platform.decodeURIComponent encoded).bind fun key =>
  if ownedBy companyId key then some (String.ofList key) else none

theorem resolve_reference_ne {mediaUrl companyId key : String}
    (h : resolveMediaKeyForCompany platform env mediaUrl companyId = some key) : mediaUrl ≠ "" := by
  rintro rfl
  unfold resolveMediaKeyForCompany at h
  rw [platform.parse_empty] at h
  exact nomatch h

theorem resolve_key_ne {mediaUrl companyId key : String}
    (h : resolveMediaKeyForCompany platform env mediaUrl companyId = some key) : key ≠ "" := by
  unfold resolveMediaKeyForCompany at h
  obtain ⟨url, -, h⟩ := Option.bind_eq_some_iff.mp h
  obtain ⟨encoded, -, h⟩ := Option.bind_eq_some_iff.mp h
  obtain ⟨text, -, h⟩ := Option.bind_eq_some_iff.mp h
  split_ifs at h with howned
  obtain rfl := Option.some.inj h
  rintro hempty
  have hnil : text = [] := by simpa using congrArg String.toList hempty
  rw [hnil] at howned
  simp [ownedBy] at howned

end Resolve

/-! ### The rows -/

inductive ScheduledStatus
  | scheduled
  | processing
  | sent
  | failed
  | canceled
  | skipped
  deriving DecidableEq

inductive BulkJobStatus
  | scheduled
  | running
  | completed
  | completedWithErrors
  | canceled
  deriving DecidableEq

structure MessageMedia where
  media_url : Option String
  sender_avatar_url : Option String
  deriving DecidableEq

structure ScheduledMedia where
  media_url : Option String
  status : ScheduledStatus
  deriving DecidableEq

structure BulkJobMedia where
  media_url : Option String
  status : BulkJobStatus
  deriving DecidableEq

/-- The columns of a tenant that refer to objects, with the queue. -/
structure TenantMedia where
  messages : List MessageMedia
  /-- `storage_uri` -/
  message_attachments : List (Option String)
  /-- `profile_picture_url` -/
  contacts : List (Option String)
  /-- `media_url` -/
  status_updates : List (Option String)
  /-- `header_image_url` -/
  whatsapp_catalogs : List (Option String)
  /-- `image_urls` -/
  catalog_products : List (Option (List String))
  scheduled_messages : List ScheduledMedia
  bulk_jobs : List BulkJobMedia
  /-- `companies.logo_key` -/
  logo_key : Option String
  purge_cleanup_items : List CleanupItem

inductive ReferenceColumn
  | messageMedia
  | messageSenderAvatar
  | attachmentStorage
  | contactPicture
  | statusMedia
  | catalogHeader
  | productImages
  | scheduledMedia
  | bulkJobMedia
  deriving DecidableEq

/-- The references of the live rows in a column: a settled schedule or broadcast does not need its upload. -/
def TenantMedia.references (db : TenantMedia) : ReferenceColumn → List String
  | .messageMedia => db.messages.filterMap (·.media_url)
  | .messageSenderAvatar => db.messages.filterMap (·.sender_avatar_url)
  | .attachmentStorage => db.message_attachments.filterMap id
  | .contactPicture => db.contacts.filterMap id
  | .statusMedia => db.status_updates.filterMap id
  | .catalogHeader => db.whatsapp_catalogs.filterMap id
  | .productImages => (db.catalog_products.filterMap id).flatten
  | .scheduledMedia =>
    (db.scheduled_messages.filter fun row => decide (row.status = .scheduled ∨ row.status = .processing)).filterMap
      (·.media_url)
  | .bulkJobMedia =>
    (db.bulk_jobs.filter fun row => decide (row.status = .scheduled ∨ row.status = .running)).filterMap (·.media_url)

def censusColumns : List ReferenceColumn :=
  [.messageMedia, .messageSenderAvatar, .contactPicture, .statusMedia, .scheduledMedia, .bulkJobMedia]

/-! ### The intents -/

/-- `select distinct reference from … where reference in (…)`; an empty text is not collected. -/
def TenantMedia.collect (db : TenantMedia) (references : List String) (column : ReferenceColumn) : List String :=
  ((db.references column).filter fun reference => decide (reference ∈ references)).dedup.filter (· ≠ "")

/-- `findStillReferenced`, on the items' references with their keys. -/
def TenantMedia.findStillReferenced (db : TenantMedia) (keysByReference : List (String × String)) : List String :=
  censusColumns.flatMap (db.collect (keysByReference.map Prod.fst)) ++
    match db.logo_key.filter (· ≠ "") with
    | none => []
    | some logo => (keysByReference.filter fun entry => decide (entry.2 = logo)).map Prod.fst

def CleanupItem.intend (key : String) (item : CleanupItem) : CleanupItem :=
  { item with
    mediaKey := some key
    lastError := some MEDIA_DELETING_MARKER }

/-- One pass of the loop; `keyOf` is `keysByReference.get`. -/
def TenantMedia.commitOne (keyOf : String → String) (stillReferenced : List String)
    (acc : TenantMedia × List ℕ) (item : ClaimedItem) : TenantMedia × List ℕ :=
  if item.reference ∈ stillReferenced then acc
  else
    ({ acc.1 with
      purge_cleanup_items := acc.1.purge_cleanup_items.map fun row =>
        if row.id = item.id then row.intend (keyOf item.reference) else row }, acc.2 ++ [item.id])

/-- The tables with the intents, and the ids of the items that have one. -/
def commitDeletionIntents (keyOf : String → String) (items : List ClaimedItem) (db : TenantMedia) : TenantMedia × List ℕ :=
  if items = [] then (db, [])
  else
    let stillReferenced := db.findStillReferenced (items.map fun item => (item.reference, keyOf item.reference))
    items.foldl (TenantMedia.commitOne keyOf stillReferenced) (db, [])

theorem foldl_committed (keyOf : String → String) (stillReferenced : List String) (items : List ClaimedItem)
    (acc : TenantMedia × List ℕ) : (items.foldl (TenantMedia.commitOne keyOf stillReferenced) acc).2 =
      acc.2 ++ (items.filter fun item => decide (item.reference ∉ stillReferenced)).map (·.id) := by
  induction items generalizing acc with
  | nil => simp
  | cons item items ih =>
    rw [List.foldl_cons, ih]
    by_cases h : item.reference ∈ stillReferenced
    · rw [TenantMedia.commitOne, if_pos h, List.filter_cons_of_neg (by simpa using h)]
    · rw [TenantMedia.commitOne, if_neg h, List.filter_cons_of_pos (by simpa using h), List.map_cons, List.append_assoc,
        List.singleton_append]

theorem mem_committed (keyOf : String → String) (items : List ClaimedItem) (db : TenantMedia) (id : ℕ) :
    id ∈ (commitDeletionIntents keyOf items db).2 ↔ ∃ item ∈ items, item.id = id ∧
      item.reference ∉ db.findStillReferenced (items.map fun item => (item.reference, keyOf item.reference)) := by
  unfold commitDeletionIntents
  split_ifs with hnil
  · simp [hnil]
  · simp only [foldl_committed, List.nil_append, List.mem_map, List.mem_filter, decide_eq_true_eq]
    exact ⟨fun ⟨item, ⟨hmem, hnot⟩, hid⟩ => ⟨item, hmem, hid, hnot⟩, fun ⟨item, hmem, hid, hnot⟩ => ⟨item, ⟨hmem, hnot⟩, hid⟩⟩

/-! ### What the census misses -/

section Census

variable (platform : UrlPlatform) (env : StorageEnv) (companyId : String)

/-- A live row, or the logo, refers to the object. -/
def TenantMedia.Refers (db : TenantMedia) (key : String) : Prop :=
  db.logo_key = some key ∨
    ∃ column, ∃ reference ∈ db.references column, resolveMediaKeyForCompany platform env reference companyId = some key

/-- The object is the logo, or a column of the census has the text. -/
def TenantMedia.Spelled (db : TenantMedia) (reference key : String) : Prop :=
  db.logo_key = some key ∨ ∃ column ∈ censusColumns, reference ∈ db.references column

variable {platform env companyId} {db : TenantMedia} {items : List ClaimedItem} {keyOf : String → String}

theorem mem_findStillReferenced {item : ClaimedItem} (hitem : item ∈ items)
    (hkeys : ∀ i ∈ items, resolveMediaKeyForCompany platform env i.reference companyId = some (keyOf i.reference)) :
    item.reference ∈ db.findStillReferenced (items.map fun i => (i.reference, keyOf i.reference)) ↔
      db.Spelled item.reference (keyOf item.reference) := by
  have hne : item.reference ≠ "" := resolve_reference_ne platform env (hkeys item hitem)
  have hkey : keyOf item.reference ≠ "" := resolve_key_ne platform env (hkeys item hitem)
  have hmem : item.reference ∈ (items.map fun i => (i.reference, keyOf i.reference)).map Prod.fst := by
    rw [List.map_map]
    exact List.mem_map_of_mem (f := Prod.fst ∘ fun i : ClaimedItem => (i.reference, keyOf i.reference)) hitem
  have hcolumn : ∀ column, item.reference ∈ db.collect ((items.map fun i => (i.reference, keyOf i.reference)).map Prod.fst)
      column ↔ item.reference ∈ db.references column := by
    intro column
    simp only [TenantMedia.collect, List.mem_filter, List.mem_dedup, decide_eq_true_eq, hmem, and_true, hne, ne_eq,
      not_false_eq_true]
  unfold TenantMedia.findStillReferenced TenantMedia.Spelled
  rw [List.mem_append, or_comm, List.mem_flatMap]
  refine or_congr ?_ (exists_congr fun column => and_congr_right fun _ => hcolumn column)
  cases hlogo : db.logo_key with
  | none => simp
  | some logo =>
    by_cases hempty : logo = ""
    · have hfilter : (some logo).filter (fun l => decide (l ≠ "")) = none := by simp [hempty]
      have hother : logo ≠ keyOf item.reference := fun heq => hkey (heq ▸ hempty)
      rw [hfilter]
      simp [hother]
    · have hfilter : (some logo).filter (fun l => decide (l ≠ "")) = some logo := by simp [hempty]
      simp only [hfilter, List.mem_map, List.mem_filter, decide_eq_true_eq, Option.some.injEq]
      constructor
      · rintro ⟨entry, ⟨⟨i, hi, rfl⟩, hentry⟩, hreference⟩
        dsimp only at hentry hreference
        rw [← hentry, hreference]
      · rintro rfl
        exact ⟨_, ⟨⟨item, hitem, rfl⟩, rfl⟩, rfl⟩

/-- **The census.**  The intents that a batch commits are for objects without a live reference if and only if, for every
item whose object has one, the object is the logo or a column that the census reads has the item's own text. -/
theorem census_complete_iff (platform : UrlPlatform) (env : StorageEnv) (companyId : String) (db : TenantMedia)
    (items : List ClaimedItem) (keyOf : String → String) (hids : (items.map (·.id)).Nodup)
    (hkeys : ∀ i ∈ items, resolveMediaKeyForCompany platform env i.reference companyId = some (keyOf i.reference)) :
    (∀ i ∈ items, i.id ∈ (commitDeletionIntents keyOf items db).2 →
      ¬ db.Refers platform env companyId (keyOf i.reference)) ↔
      ∀ i ∈ items, db.Refers platform env companyId (keyOf i.reference) → db.Spelled i.reference (keyOf i.reference) := by
  refine forall₂_congr fun i hi => ?_
  have hcommitted : i.id ∈ (commitDeletionIntents keyOf items db).2 ↔ ¬ db.Spelled i.reference (keyOf i.reference) := by
    rw [mem_committed, ← mem_findStillReferenced hi hkeys]
    constructor
    · rintro ⟨j, hj, hid, hnot⟩
      rwa [List.inj_on_of_nodup_map hids hj hi hid] at hnot
    · exact fun hnot => ⟨i, hi, rfl, hnot⟩
  rw [hcommitted]
  exact ⟨fun h hrefers => by_contra fun hnot => h hnot hrefers, fun h hnot hrefers => hnot (h hrefers)⟩

end Census

/-! ### An attachment -/

def fileUrls : UrlPlatform where
  parse text := if text = "s3://inbox/media/co/a.pdf" then some ⟨"s3:", "inbox", "", "", "", "/media/co/a.pdf".toList, "null"⟩ else none
  parse_empty := rfl
  decodeURIComponent := some
  encodeURIComponent := String.toList

def inboxEnv : StorageEnv := ⟨"inbox", "http://localhost:4450", ""⟩

def fileItem : ClaimedItem := ⟨1, "s3://inbox/media/co/a.pdf", 0, none⟩

def fileTenant (media_url : Option String) (storage_uris : List (Option String)) : TenantMedia :=
  ⟨[⟨media_url, none⟩], storage_uris, [], [], [], [], [], [], none,
    [⟨1, "purged", "s3://inbox/media/co/a.pdf", 0, none, none, 0⟩]⟩

/-- An object that is a second attachment of a message is not found. -/
theorem attachment_not_counted :
    resolveMediaKeyForCompany fileUrls inboxEnv fileItem.reference "co" = some "media/co/a.pdf" ∧
      1 ∈ (commitDeletionIntents (fun _ => "media/co/a.pdf") [fileItem]
        (fileTenant none [some "s3://inbox/media/co/a.pdf"])).2 ∧
      (fileTenant none [some "s3://inbox/media/co/a.pdf"]).Refers fileUrls inboxEnv "co" "media/co/a.pdf" := by
  have hresolve : resolveMediaKeyForCompany fileUrls inboxEnv "s3://inbox/media/co/a.pdf" "co" = some "media/co/a.pdf" := by
    decide +kernel
  exact ⟨hresolve, by decide +kernel, .inr ⟨.attachmentStorage, _, List.mem_singleton.mpr rfl, hresolve⟩⟩

theorem first_media_counted :
    fileItem.id ∉ (commitDeletionIntents (fun _ => "media/co/a.pdf") [fileItem]
      (fileTenant (some "s3://inbox/media/co/a.pdf") [some "s3://inbox/media/co/a.pdf"])).2 ∨
      ¬ (fileTenant (some "s3://inbox/media/co/a.pdf") [some "s3://inbox/media/co/a.pdf"]).Refers fileUrls inboxEnv "co"
        "media/co/a.pdf" := by
  have hcomplete := (census_complete_iff fileUrls inboxEnv "co"
    (fileTenant (some "s3://inbox/media/co/a.pdf") [some "s3://inbox/media/co/a.pdf"]) [fileItem]
    (fun _ => "media/co/a.pdf") (by decide) (fun i hi => ?_)).mpr fun i hi _ => ?_
  · exact Classical.or_iff_not_imp_left.mpr fun h => hcomplete fileItem List.mem_cons_self (not_not.mp h)
  · obtain rfl := List.mem_singleton.mp hi
    decide +kernel
  · obtain rfl := List.mem_singleton.mp hi
    exact .inr ⟨.messageMedia, List.mem_cons_self, List.mem_singleton.mpr rfl⟩

end TeamInbox.Media
