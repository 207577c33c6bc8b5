import TeamInbox.Connections.PurgeErases

/-!
# TeamInbox.Connections.PurgedConnection — what a purge leaves behind

The counters of the jobs that lose leaves, and what is queued for cleanup: both are read off the rows before anything is
deleted.  `purged_of_ok` puts them together with what the statements do.
-/

namespace TeamInbox.Connections

open Lib Broadcast

/-! ### The counters -/

section Counters

/-- How many of the leaves of a job have each outcome; what is not settled counts as skipped. -/
def leafCounts (leaves : List (ℕ × Option ScheduledMessageStatus)) (job : ℕ) : PurgedCounts where
  sent := leaves.countP fun l => decide (l.1 = job) && decide (l.2 = some .sent)
  failed := leaves.countP fun l => decide (l.1 = job) && decide (l.2 = some .failed)
  canceled := leaves.countP fun l => decide (l.1 = job) && decide (l.2 = some .canceled)
  skipped := leaves.countP fun l => decide (l.1 = job) && decide (l.2 ≠ some .sent ∧ l.2 ≠ some .failed ∧ l.2 ≠ some .canceled)

/-- The rows of the groups that meet a condition. -/
def total (progress : List ((ℕ × Option ScheduledMessageStatus) × ℕ)) (q : ℕ × Option ScheduledMessageStatus → Bool) : ℕ :=
  ((progress.filter fun g => q g.1).map (·.2)).sum

theorem total_cons (g : (ℕ × Option ScheduledMessageStatus) × ℕ) (progress : List ((ℕ × Option ScheduledMessageStatus) × ℕ))
    (q : ℕ × Option ScheduledMessageStatus → Bool) :
    total (g :: progress) q = (if q g.1 then g.2 else 0) + total progress q := by
  unfold total
  rw [List.filter_cons]
  split
  · rw [List.map_cons, List.sum_cons]
  · rw [Nat.zero_add]

theorem foldl_addProgress (progress : List ((ℕ × Option ScheduledMessageStatus) × ℕ)) (job : ℕ) (counts : PurgedCounts) :
    progress.foldl (addProgress job) counts = counts.add
      ⟨total progress fun l => decide (l.1 = job) && decide (l.2 = some .sent),
        total progress fun l => decide (l.1 = job) && decide (l.2 = some .failed),
        total progress fun l => decide (l.1 = job) && decide (l.2 = some .canceled),
        total progress fun l => decide (l.1 = job) &&
          decide (l.2 ≠ some .sent ∧ l.2 ≠ some .failed ∧ l.2 ≠ some .canceled)⟩ := by
  induction progress generalizing counts with
  | nil => rfl
  | cons g progress ih =>
    obtain ⟨⟨j, status⟩, n⟩ := g
    rw [List.foldl_cons, ih]
    simp only [total_cons]
    unfold addProgress
    by_cases hj : j = job
    · subst hj
      rcases status with _ | status
      · simp [PurgedCounts.add, Nat.add_assoc]
      · cases status <;> simp [PurgedCounts.add, Nat.add_assoc]
    · simp [PurgedCounts.add, hj]

theorem foldl_bulkProgressRows (connectionId : ℕ) (rows : List TenantRow) (job : ℕ) :
    (bulkProgressRows connectionId rows).foldl (addProgress job) {} = leafCounts (purgedLeaves connectionId rows) job := by
  have htotal : ∀ q, total (bulkProgressRows connectionId rows) q = (purgedLeaves connectionId rows).countP q :=
    fun q => sum_groupCount_filter id (purgedLeaves connectionId rows) q
  rw [foldl_addProgress]
  simp [PurgedCounts.add, leafCounts, htotal]

/-- The data of a row once the leaves that go have been counted. -/
def countedData (connectionId now : ℕ) (rows : List TenantRow) (r : TenantRow) : RowData :=
  if r.table = .bulkJobs ∧ ∃ l ∈ purgedLeaves connectionId rows, l.1 = r.id then
    { r.data with
      purged := r.data.purged.add (leafCounts (purgedLeaves connectionId rows) r.id)
      updatedAt := now }
  else r.data

theorem foldl_countPurged (progress : List ((ℕ × Option ScheduledMessageStatus) × ℕ)) (now : ℕ) {jobs : List ℕ}
    (hjobs : jobs.Nodup) (rows : List TenantRow) :
    jobs.foldl (countPurged progress now) rows = rows.map fun r =>
      if r.table = .bulkJobs ∧ r.id ∈ jobs then
        { r with
          data := { r.data with
            purged := r.data.purged.add (progress.foldl (addProgress r.id) {})
            updatedAt := now } }
      else r := by
  induction jobs generalizing rows with
  | nil => simp
  | cons job jobs ih =>
    obtain ⟨hnew, hrest⟩ := List.nodup_cons.mp hjobs
    rw [List.foldl_cons, ih hrest]
    unfold countPurged
    rw [List.map_map]
    refine List.map_congr_left fun r _ => ?_
    rw [Function.comp_apply]
    by_cases htable : r.table = .bulkJobs
    · by_cases hid : r.id = job
      · subst hid
        simp [htable, hnew]
      · simp [htable, hid]
    · simp [htable]

end Counters

/-! ### What is queued -/

section Queued

variable {connectionId : ℕ} {rows : List TenantRow}

theorem mem_foldl_insertItem (items list : List PurgeCleanupItem) (item : PurgeCleanupItem) :
    item ∈ list.foldl insertItem items ↔ item ∈ items ∨ item ∈ list := by
  induction list generalizing items with
  | nil => simp
  | cons a list ih =>
    have hinsert : item ∈ insertItem items a ↔ item ∈ items ∨ item = a := by
      unfold insertItem
      split
      · next hmem =>
        constructor
        · exact .inl
        · rintro (h | rfl)
          · exact h
          · exact hmem
      · rw [List.mem_append, List.mem_singleton]
    rw [List.foldl_cons, ih, hinsert, List.mem_cons, or_assoc]

/-- The references to stored objects a row holds. -/
def references (r : TenantRow) : List String :=
  match r.table with
  | .messages => r.data.mediaUrl.toList ++ r.data.senderAvatarUrl.toList
  | .contacts => r.data.profilePictureUrl.toList
  | .statusUpdates | .scheduledMessages => r.data.mediaUrl.toList
  | .whatsappCatalogs => r.data.headerImageUrl.toList
  | .catalogProducts => r.data.imageUrls.getD []
  | .messageAttachments => r.data.storageUri.toList
  | _ => []

/-- The row is reached by the key by which the references of its table are queued. -/
def Reached (connectionId : ℕ) (rows : List TenantRow) (r : TenantRow) : Prop :=
  match r.table with
  | .messages | .contacts | .statusUpdates | .whatsappCatalogs | .catalogProducts =>
    r.link .whatsappConnectionId = some connectionId
  | .scheduledMessages => ∃ contact ∈ contactIds connectionId rows, r.link .contactId = some contact
  | .messageAttachments =>
    ∃ m ∈ rows, m.table = .messages ∧ r.link .messageId = some m.id ∧ m.link .channelAccountId = some connectionId
  | _ => True

theorem mem_cleanupItems_of_source {jobs : List ℕ} {t : Table} {r : TenantRow} (column : RowData → Option String)
    (hsource : (t, column) ∈ mediaSources) (hr : r ∈ sourceRows connectionId rows t) {reference : String}
    (href : reference ∈ (column r.data).toList) : mediaItem connectionId reference ∈ cleanupItems connectionId rows jobs := by
  unfold cleanupItems
  refine List.mem_append_left _ (List.mem_append_left _ (List.mem_append_right _ ?_))
  refine List.mem_flatMap.mpr ⟨(t, column), hsource, List.mem_filterMap.mpr ⟨r, hr, ?_⟩⟩
  dsimp only
  rw [Option.mem_toList.mp href]
  rfl

theorem mem_sourceRows {r : TenantRow} (hr : r ∈ rows) (hlink : r.link .whatsappConnectionId = some connectionId)
    (ht : r.table ≠ .scheduledMessages) : r ∈ sourceRows connectionId rows r.table := by
  refine List.mem_filter.mpr ⟨hr, ?_⟩
  rw [if_neg ht, decide_eq_true rfl, Bool.true_and]
  exact beq_iff_eq.mpr hlink

/-- **What is reached is queued.** -/
theorem queued_of_reached {jobs : List ℕ} {r : TenantRow} (hr : r ∈ rows) (hreached : Reached connectionId rows r)
    {reference : String} (href : reference ∈ references r) :
    mediaItem connectionId reference ∈ cleanupItems connectionId rows jobs := by
  unfold Reached at hreached
  unfold references at href
  have hrows : r.table ≠ .scheduledMessages → r.link .whatsappConnectionId = some connectionId →
      r ∈ sourceRows connectionId rows r.table := fun ht hlink => mem_sourceRows hr hlink ht
  cases ht : r.table <;> rw [ht] at hreached href hrows
  case messages =>
    rcases List.mem_append.mp href with href | href
    · exact mem_cleanupItems_of_source (·.mediaUrl) (by simp [mediaSources]) (hrows nofun hreached) href
    · exact mem_cleanupItems_of_source (·.senderAvatarUrl) (by simp [mediaSources]) (hrows nofun hreached) href
  case contacts =>
    exact mem_cleanupItems_of_source (·.profilePictureUrl) (by simp [mediaSources]) (hrows nofun hreached) href
  case statusUpdates =>
    exact mem_cleanupItems_of_source (·.mediaUrl) (by simp [mediaSources]) (hrows nofun hreached) href
  case whatsappCatalogs =>
    exact mem_cleanupItems_of_source (·.headerImageUrl) (by simp [mediaSources]) (hrows nofun hreached) href
  case scheduledMessages =>
    have hmem : r ∈ sourceRows connectionId rows .scheduledMessages := by
      obtain ⟨contact, hcontact, hlink⟩ := hreached
      refine List.mem_filter.mpr ⟨hr, ?_⟩
      rw [if_pos rfl, decide_eq_true ht, Bool.true_and, hlink]
      exact List.contains_iff_mem.mpr hcontact
    exact mem_cleanupItems_of_source (·.mediaUrl) (by simp [mediaSources]) hmem href
  case catalogProducts =>
    unfold cleanupItems
    refine List.mem_append_left _ (List.mem_append_right _ ?_)
    exact List.mem_flatMap.mpr ⟨r, hrows nofun hreached, List.mem_map.mpr ⟨reference, href, rfl⟩⟩
  case messageAttachments =>
    obtain ⟨m, hm, hmt, hlink, haccount⟩ := hreached
    unfold cleanupItems
    refine List.mem_append_left _ (List.mem_append_left _ (List.mem_append_left _ (List.mem_append_right _ ?_)))
    refine List.mem_filterMap.mpr ⟨r, List.mem_filter.mpr ⟨hr, ?_⟩, ?_⟩
    · rw [decide_eq_true ht, Bool.true_and]
      refine List.any_eq_true.mpr ⟨m, hm, ?_⟩
      rw [decide_eq_true hmt, hlink, haccount, Bool.true_and, beq_self_eq_true, beq_self_eq_true, Bool.and_self]
    · rw [Option.mem_toList.mp href]
      rfl
  all_goals exact absurd href List.not_mem_nil

theorem queued_search {jobs : List ℕ} {contact : ℕ} (hc : contact ∈ contactIds connectionId rows) :
    (⟨connectionId, .searchContact, toString contact⟩ : PurgeCleanupItem) ∈ cleanupItems connectionId rows jobs := by
  unfold cleanupItems
  refine List.mem_append_left _ (List.mem_append_left _ (List.mem_append_left _ (List.mem_append_left _ ?_)))
  exact List.mem_map.mpr ⟨contact, hc, rfl⟩

theorem cleanupItems_connection {jobs : List ℕ} {item : PurgeCleanupItem}
    (h : item ∈ cleanupItems connectionId rows jobs) : item.connectionId = connectionId := by
  simp only [cleanupItems, searchItems, attachmentItems, mediaItems, imageItems, List.mem_append, List.mem_map,
    List.mem_flatMap, List.mem_filterMap, Option.map_eq_some_iff] at h
  rcases h with (((⟨_, -, rfl⟩ | ⟨_, -, _, -, rfl⟩) | ⟨_, -, _, -, _, -, rfl⟩) | ⟨_, -, _, -, rfl⟩) | ⟨_, -, rfl⟩ <;> rfl

end Queued

/-! ### The transaction -/

section Body

variable {connectionId now : ℕ} {rows rows' : List TenantRow} {items items' : List PurgeCleanupItem}
  {result : ArchivedConnectionPurge}

theorem bind_ok {ε α β : Type} {x : Except ε α} {f : α → Except ε β} {b : β} (h : x >>= f = .ok b) :
    ∃ a, x = .ok a ∧ f a = .ok b := by
  cases x with
  | error e => cases h
  | ok a => exact ⟨a, rfl, h⟩

def affectedBulkJobIds (connectionId : ℕ) (rows : List TenantRow) : List ℕ :=
  ((bulkProgressRows connectionId rows).map (·.1.1)).dedup

def counted (connectionId now : ℕ) (rows : List TenantRow) : List TenantRow :=
  (affectedBulkJobIds connectionId rows).foldl (countPurged (bulkProgressRows connectionId rows) now) rows

theorem purgeBody_ok (h : purgeBody connectionId now rows items = .ok (result, rows', items')) :
    (∃ connection ∈ rows, connection.table = .whatsappConnections ∧ connection.id = connectionId ∧
      connection.data.archivedAt.isSome) ∧
    items' = (cleanupItems connectionId rows (affectedBulkJobIds connectionId rows)).foldl insertItem items ∧
    ∃ first second, runAll connectionId beforeMessages (counted connectionId now rows) = .ok first ∧
      runAll connectionId (.delete .messages messageConditions :: beforeContacts) first = .ok second ∧
      runAll connectionId fromContacts (separateContacts connectionId now second) = .ok rows' ∧
      result = ⟨contactIds connectionId rows,
        first.countP (selected connectionId .messages messageConditions first),
        affectedBulkJobIds connectionId rows, separatedContacts connectionId second⟩ := by
  unfold purgeBody at h
  split at h
  · cases h
  · next connection hfind =>
    split at h
    · cases h
    · next harchived =>
      dsimp only at h
      obtain ⟨first, hfirst, h⟩ := bind_ok h
      obtain ⟨second, hsecond, h⟩ := bind_ok h
      obtain ⟨third, hthird, h⟩ := bind_ok h
      cases h
      have hprop := List.find?_some hfind
      obtain ⟨htable, hid⟩ := Bool.and_eq_true_iff.mp hprop
      refine ⟨⟨connection, List.mem_of_find?_eq_some hfind, of_decide_eq_true htable, of_decide_eq_true hid, ?_⟩, rfl,
        first, second, hfirst, hsecond, hthird, rfl⟩
      cases hat : connection.data.archivedAt with
      | none =>
        rw [hat] at harchived
        exact absurd rfl harchived
      | some at' => rfl

theorem mem_affectedBulkJobIds {job : ℕ} :
    job ∈ affectedBulkJobIds connectionId rows ↔ ∃ l ∈ purgedLeaves connectionId rows, l.1 = job := by
  unfold affectedBulkJobIds bulkProgressRows groupCount
  rw [List.mem_dedup, List.map_map, List.mem_map, List.map_id]
  simp only [List.mem_dedup, Function.comp_apply]

theorem counted_eq (connectionId now : ℕ) (rows : List TenantRow) :
    counted connectionId now rows = rows.map fun r => { r with data := countedData connectionId now rows r } := by
  unfold counted
  have hnodup : (affectedBulkJobIds connectionId rows).Nodup := List.nodup_dedup _
  rw [foldl_countPurged _ now hnodup]
  refine List.map_congr_left fun r _ => ?_
  unfold countedData
  by_cases h : r.table = .bulkJobs ∧ r.id ∈ affectedBulkJobIds connectionId rows
  · rw [if_pos h, if_pos ⟨h.1, mem_affectedBulkJobIds.mp h.2⟩, foldl_bulkProgressRows]
  · rw [if_neg h, if_neg fun hc => h ⟨hc.1, mem_affectedBulkJobIds.mpr hc.2⟩]

theorem erasing_counted (hkeys : (rows.map rowKey).Nodup) :
    Erasing connectionId now rows (countedData connectionId now rows) (counted connectionId now rows) := by
  have hmap : (counted connectionId now rows).map rowKey = rows.map rowKey := by
    rw [counted_eq, List.map_map]
    rfl
  refine ⟨by rw [hmap]; exact hkeys, fun r' hr' => ?_, fun r hr => .inl ?_⟩
  · rw [counted_eq] at hr'
    obtain ⟨r, hr, rfl⟩ := List.mem_map.mp hr'
    exact ⟨r, hr, ⟨rfl, rfl, fun _ => .inl rfl⟩, .inl rfl⟩
  · rw [hmap]
    exact List.mem_map_of_mem hr

theorem erasing_purgeBody (hkeys : (rows.map rowKey).Nodup)
    (h : purgeBody connectionId now rows items = .ok (result, rows', items')) :
    Erasing connectionId now rows (countedData connectionId now rows) rows' := by
  obtain ⟨-, -, first, second, hfirst, hsecond, hthird, -⟩ := purgeBody_ok h
  obtain ⟨hbefore, hmiddle, hlast⟩ := statements_own
  have h1 := (erasing_counted hkeys).runAll hkeys hbefore hfirst
  have h2 := h1.runAll hkeys hmiddle hsecond
  exact h2.separateContacts.runAll hkeys hlast hthird

theorem noneLinked_purgeBody (h : purgeBody connectionId now rows items = .ok (result, rows', items')) :
    NoneLinked connectionId .contacts .whatsappConnectionId rows' ∧
      NoneLinked connectionId .messages .whatsappConnectionId rows' ∧
      NoneLinked connectionId .messages .channelAccountId rows' := by
  obtain ⟨-, -, first, second, -, hsecond, hthird, -⟩ := purgeBody_ok h
  obtain ⟨afterMessages, hmessages, hrest⟩ := runAll_cons hsecond
  obtain ⟨afterContacts, hcontacts, hlast⟩ := runAll_cons hthird
  have hfrom : ∀ r' ∈ rows', ∃ r ∈ afterMessages, Row.Keeps (fun _ _ _ => True) r r' := by
    intro r' hr'
    obtain ⟨r3, hr3, hk3⟩ := runAll_keeps hthird r' hr'
    obtain ⟨r2, hr2, rfl⟩ := List.mem_map.mp hr3
    obtain ⟨r1, hr1, hk1⟩ := runAll_keeps hrest r2 hr2
    refine ⟨r1, hr1, hk1.trans (Row.Keeps.trans ?_ hk3)⟩
    split
    · have hclear : Row.Keeps (fun _ _ _ => True) r2 (r2.clear .mergedIntoContactId) := .clear fun _ _ => trivial
      exact ⟨hclear.table, hclear.id, hclear.link⟩
    · exact .refl r2
  refine ⟨?_, ?_, ?_⟩
  · exact (noneLinked_delete (c := .whatsappConnectionId) List.mem_cons_self hcontacts).keeps (runAll_keeps hlast)
  · exact (noneLinked_delete (c := .whatsappConnectionId) (by decide) hmessages).keeps hfrom
  · exact (noneLinked_delete (c := .channelAccountId) (by decide) hmessages).keeps hfrom

end Body

section Transaction

variable (connectionId now : ℕ)

/-- `purgeArchivedConnection`: a transaction that fails leaves nothing. -/
def purgeArchivedConnection (s : Tenant) : Except PurgeError ArchivedConnectionPurge × Tenant :=
  match h : purgeBody connectionId now s.rows s.items with
  | .error e => (.error e, s)
  | .ok (result, rows, items) => (.ok result, ⟨rows, (erasing_purgeBody s.keys h).keys, items⟩)

variable {connectionId now} {s s' : Tenant} {result : ArchivedConnectionPurge}

theorem purgeArchivedConnection_error {e : PurgeError} (h : purgeBody connectionId now s.rows s.items = .error e) :
    purgeArchivedConnection connectionId now s = (.error e, s) := by
  unfold purgeArchivedConnection
  split
  · next e' he =>
    rw [h] at he
    cases he
    rfl
  · next he =>
    rw [h] at he
    cases he

theorem purgeArchivedConnection_ok {rows : List TenantRow} {items : List PurgeCleanupItem}
    (h : purgeBody connectionId now s.rows s.items = .ok (result, rows, items)) :
    purgeArchivedConnection connectionId now s = (.ok result, ⟨rows, (erasing_purgeBody s.keys h).keys, items⟩) := by
  unfold purgeArchivedConnection
  split
  · next he =>
    rw [h] at he
    cases he
  · next he =>
    have heq := h.symm.trans he
    cases heq
    rfl

def Tenant.Gone (s' : Tenant) (r : TenantRow) : Prop := rowKey r ∉ s'.rows.map rowKey

/-- A pointer of a row at another one that belonged to the connection and is gone. -/
def PointedAtGone (connectionId : ℕ) (s s' : Tenant) (t : Table) (c : Column) (i : ℕ) : Prop :=
  ∃ p ∈ s.rows, (c, p.table) ∈ pointers t ∧ p.id = i ∧ Belongs connectionId s.rows p ∧ s'.Gone p

/-- The tables whose rows are deleted by the very key by which their references are queued. -/
def oneKey : List Table := [.contacts, .statusUpdates, .whatsappCatalogs, .catalogProducts]

structure Purged (connectionId now : ℕ) (s s' : Tenant) : Prop where
  /-- what is gone belonged to the connection -/
  belongs : ∀ r ∈ s.rows, s'.Gone r → Belongs connectionId s.rows r
  /-- no contact or message of it is left -/
  gone : NoneLinked connectionId .contacts .whatsappConnectionId s'.rows ∧
    NoneLinked connectionId .messages .whatsappConnectionId s'.rows ∧
    NoneLinked connectionId .messages .channelAccountId s'.rows
  /-- the rest is unchanged, but for pointers at what is gone, `updated_at` of separated contacts, and counters -/
  stays : ∀ r' ∈ s'.rows, ∃ r ∈ s.rows, Row.Keeps (PointedAtGone connectionId s s') r r' ∧
    DataKept now (countedData connectionId now s.rows) r r'
  media : ∀ r ∈ s.rows, s'.Gone r → r.table ∈ oneKey ∨ Reached connectionId s.rows r →
    ∀ reference ∈ references r, mediaItem connectionId reference ∈ s'.items
  search : ∀ r ∈ s.rows, s'.Gone r → r.table = .contacts → ⟨connectionId, .searchContact, toString r.id⟩ ∈ s'.items
  /-- nothing leaves the queue, and nothing comes to it but for the connection -/
  items : ∀ item ∈ s.items, item ∈ s'.items
  ownItems : ∀ item ∈ s'.items, item ∈ s.items ∨ item.connectionId = connectionId

theorem doomed_gone (hstays : ∀ r' ∈ s'.rows, ∃ r ∈ s.rows, Row.Keeps (Cleared connectionId s.rows s'.rows) r r')
    (hcontacts : NoneLinked connectionId .contacts .whatsappConnectionId s'.rows)
    (hmessages : NoneLinked connectionId .messages .whatsappConnectionId s'.rows) {p : TenantRow} (hp : p ∈ s.rows)
    (hdoomed : Doomed connectionId p) : s'.Gone p := by
  intro hmem
  obtain ⟨r', hr', hkey⟩ := List.mem_map.mp hmem
  obtain ⟨r, hr, hkeep⟩ := hstays r' hr'
  obtain rfl : r = p := eq_of_key s.keys hr hp ((rowKey_keeps hkeep).symm.trans hkey)
  obtain ⟨htable, hlink⟩ := hdoomed
  have hstill : r'.link .whatsappConnectionId = some connectionId := by
    rcases hkeep.link .whatsappConnectionId with heq | ⟨-, -, -, q, -, hpointer, -⟩
    · exact heq.trans hlink
    · rcases htable with ht | ht <;> rw [ht] at hpointer <;> simp [pointers] at hpointer
  rcases htable with ht | ht
  · exact hcontacts r' hr' (hkeep.table.trans ht) hstill
  · exact hmessages r' hr' (hkeep.table.trans ht) hstill

theorem Belongs.link_of_oneKey {rows : List TenantRow} {r : TenantRow} (h : Belongs connectionId rows r)
    (ht : r.table ∈ oneKey) : r.link .whatsappConnectionId = some connectionId := by
  have hcolumns : ∀ t ∈ oneKey, accountColumns t = [.whatsappConnectionId] ∧ ownerColumns t = [] ∧
      t ≠ .whatsappConnections ∧ t ≠ .channelAccounts := by decide
  obtain ⟨haccount, howner, hne, hne'⟩ := hcolumns _ ht
  cases h with
  | root hroot _ => exact absurd hroot (not_or.mpr ⟨hne, hne'⟩)
  | account hc hlink =>
    rw [haccount] at hc
    rw [← List.mem_singleton.mp hc]
    exact hlink
  | part hc _ _ _ =>
    rw [howner] at hc
    exact absurd hc List.not_mem_nil

theorem reached_of_oneKey {rows : List TenantRow} {r : TenantRow} (h : Belongs connectionId rows r) (ht : r.table ∈ oneKey) :
    Reached connectionId rows r := by
  have hlink := h.link_of_oneKey ht
  unfold Reached
  simp only [oneKey, List.mem_cons, List.not_mem_nil, or_false] at ht
  rcases ht with ht | ht | ht | ht <;> rw [ht] <;> exact hlink

theorem purged_of_ok {rows : List TenantRow} {items : List PurgeCleanupItem}
    (h : purgeBody connectionId now s.rows s.items = .ok (result, rows, items)) (hrows : s'.rows = rows)
    (hitems : s'.items = items) : Purged connectionId now s s' := by
  have herasing := erasing_purgeBody s.keys h
  have hnone := noneLinked_purgeBody h
  obtain ⟨-, hqueue, -⟩ := purgeBody_ok h
  rw [← hrows] at herasing hnone
  rw [← hitems] at hqueue
  have hbelongs : ∀ r ∈ s.rows, s'.Gone r → Belongs connectionId s.rows r := fun r hr hgone =>
    (herasing.erased r hr).resolve_left hgone
  have hdoomed : ∀ p ∈ s.rows, Doomed connectionId p → s'.Gone p := by
    intro p hp
    refine doomed_gone (fun r' hr' => ?_) hnone.1 hnone.2.1 hp
    obtain ⟨r, hr, hkeep, -⟩ := herasing.stays r' hr'
    exact ⟨r, hr, hkeep⟩
  have hmem : ∀ item, item ∈ s'.items ↔
      item ∈ s.items ∨ item ∈ cleanupItems connectionId s.rows (affectedBulkJobIds connectionId s.rows) := by
    intro item
    rw [hqueue]
    exact mem_foldl_insertItem _ _ _
  refine ⟨hbelongs, hnone, fun r' hr' => ?_, fun r hr hgone hkey reference href => ?_, fun r hr hgone ht => ?_,
    fun item hitem => (hmem item).mpr (.inl hitem), fun item hitem => ((hmem item).mp hitem).imp_right cleanupItems_connection⟩
  · obtain ⟨r, hr, hkeep, hdata⟩ := herasing.stays r' hr'
    refine ⟨r, hr, hkeep.mono fun t c i hc => ?_, hdata⟩
    obtain ⟨p, hp, hpointer, hid, hb, hgone⟩ := hc
    exact ⟨p, hp, hpointer, hid, hb, hgone.elim id (hdoomed p hp)⟩
  · refine (hmem _).mpr (.inr (queued_of_reached hr ?_ href))
    exact hkey.elim (reached_of_oneKey (hbelongs r hr hgone)) id
  · have hlink := (hbelongs r hr hgone).link_of_oneKey (by rw [ht]; decide)
    exact (hmem _).mpr (.inr (queued_search (mem_idsLinked.mpr ⟨r, hr, ht, hlink, rfl⟩)))

/-- A purge that fails changes nothing; one that succeeds erases rows of its connection only, leaves every other row as
it was but for pointers at what is gone and the counters of broadcasts, and queues the cleanup of what it reaches. -/
theorem purge_erases_connection (connectionId now : ℕ) (s : Tenant) :
    match purgeArchivedConnection connectionId now s with
    | (.error _, s') => s' = s
    | (.ok _, s') => Purged connectionId now s s' := by
  cases h : purgeBody connectionId now s.rows s.items with
  | error e =>
    rw [purgeArchivedConnection_error h]
  | ok outcome =>
    obtain ⟨result, rows, items⟩ := outcome
    rw [purgeArchivedConnection_ok h]
    exact purged_of_ok h rfl rfl

def rowWith (table : Table) (id : ℕ) (links : List (Column × ℕ)) (data : RowData) : TenantRow :=
  ⟨table, id, fun c => links.lookup c, data⟩

/-- An archived connection 1 and a connection 2.  Message 20 names only the channel account of connection 1, message 21
only the connection; the customer of the endpoint 40 of connection 2 is a contact of connection 1. -/
def mixedLinks : Tenant where
  rows :=
    [rowWith .whatsappConnections 1 [] { archivedAt := some 5 },
      rowWith .whatsappConnections 2 [] {},
      rowWith .channelAccounts 1 [(.legacyWhatsappConnectionId, 1)] {},
      rowWith .channelAccounts 2 [(.legacyWhatsappConnectionId, 2)] {},
      rowWith .contacts 10 [(.whatsappConnectionId, 1)] {},
      rowWith .messages 20 [(.channelAccountId, 1), (.contactId, 10)] { mediaUrl := some "s3://media/a.jpg" },
      rowWith .messages 21 [(.whatsappConnectionId, 1), (.contactId, 10)] {},
      rowWith .messageAttachments 30 [(.messageId, 21)] { storageUri := some "s3://media/b.jpg" },
      rowWith .contactEndpoints 40 [(.channelAccountId, 2), (.contactId, 10)] {}]
  keys := by decide
  items := []

/-- Two references that are not queued although their rows are gone, and a row of another connection that has lost
its contact. -/
theorem purge_misses_links : (purgeArchivedConnection 1 9 mixedLinks).1.toOption.isSome = true ∧
    (purgeArchivedConnection 1 9 mixedLinks).2.items = [⟨1, .searchContact, "10"⟩] ∧
    (purgeArchivedConnection 1 9 mixedLinks).2.rows.map (fun r => (rowKey r, r.link .channelAccountId, r.link .contactId)) =
      [((.whatsappConnections, 2), none, none), ((.channelAccounts, 2), none, none),
        ((.contactEndpoints, 40), some 2, none)] := by
  decide +kernel

end Transaction

end TeamInbox.Connections
