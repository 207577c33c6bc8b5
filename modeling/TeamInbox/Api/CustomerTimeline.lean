import Mathlib.Data.Prod.Lex
import TeamInbox.Lib.Base64
import TeamInbox.Lib.IsoDate
import TeamInbox.Lib.Keyset
import TeamInbox.Lib.Uuid

/-!
# TeamInbox.Api.CustomerTimeline — one history across a customer's threads

A page of the timeline is read by two limited scans, of the messages of the conversations and of the messages
without a conversation, and merged.  It ends with a cursor, the text of the last message's time and id, from which the next
page is read.  A client that follows the cursors gets every message of the threads, once, from the newest to the
oldest.
-/

namespace TeamInbox.Api

open TeamInbox.Lib

structure MessageRow where
  id : UuidBytes
  timestamp : Date
  conversation_id : Option UuidBytes
  contact_id : Option UuidBytes
deriving DecidableEq

/-- The table of messages; `id` is its primary key. -/
structure MessageTable where
  rows : List MessageRow
  id_unique : (rows.map MessageRow.id).Nodup

structure CustomerThread where
  conversationId : Option UuidBytes
  contactId : Option UuidBytes
deriving DecidableEq

structure TimelineCursor where
  timestamp : Date
  id : List Char
deriving DecidableEq

structure TimelinePage where
  messages : List MessageRow
  hasMore : Bool
  nextCursor : Option (List Char)
deriving DecidableEq

/-- What the runtime and the database make of texts that they do not write themselves: characters outside the
alphabet, bytes that are no text, other notations of a time and other spellings of an identifier. -/
structure Leniency where
  base64url : List Char → List UInt8
  utf8 : List UInt8 → List Char
  date : List Char → Option Date
  uuid : List Char → Option UuidBytes

/-! ### The cursor -/

section Cursor

variable (lenient : Leniency)

/-- `Buffer.from(text, "base64url")` -/
def bufferFrom (text : List Char) : List UInt8 := (ofBase64url text).getD (lenient.base64url text)

/-- `buffer.toString("utf8")` -/
def bufferText (bytes : List UInt8) : List Char := (ofUtf8 bytes).getD (lenient.utf8 bytes)

/-- `new Date(text)`; none for a date whose time is not a number. -/
def newDate (text : List Char) : Option Date := (readIso text).or (lenient.date text)

/-- `text::uuid`; none if the database refuses the text. -/
def castUuid (text : List Char) : Option UuidBytes := (UuidBytes.ofText text).or (lenient.uuid text)

def encodeTimelineCursor (cursor : TimelineCursor) : List Char :=
  toBase64url (toUtf8 (toISOString cursor.timestamp ++ '|' :: cursor.id))

def decodeTimelineCursor (value : List Char) : Option TimelineCursor :=
  let decoded := bufferText lenient (bufferFrom lenient value)
  if '|' ∈ decoded then
    let timestamp := newDate lenient (decoded.takeWhile (· ≠ '|'))
    let id := (decoded.dropWhile (· ≠ '|')).tail
    match timestamp with
    | none => none
    | some timestamp => if id = [] then none else some ⟨timestamp, id⟩
  else none

theorem separator_not_mem_toISOString (date : Date) : '|' ∉ toISOString date := by
  intro h
  rcases mem_toISOString date _ h with hdigit | hsign
  · exact absurd hdigit (by decide)
  · exact absurd hsign (by decide)

theorem span_separator {a b : List Char} (ha : '|' ∉ a) :
    (a ++ '|' :: b).takeWhile (· ≠ '|') = a ∧ (a ++ '|' :: b).dropWhile (· ≠ '|') = '|' :: b := by
  have hall : ∀ c ∈ a, decide (c ≠ '|') = true := fun c hc => decide_eq_true fun h => ha (h ▸ hc)
  constructor
  · rw [List.takeWhile_append_of_pos hall, List.takeWhile_cons_of_neg (by simp), List.append_nil]
  · rw [List.dropWhile_append_of_pos hall, List.dropWhile_cons_of_neg (by simp)]

theorem decode_encode {cursor : TimelineCursor} (h : cursor.id ≠ []) :
    decodeTimelineCursor lenient (encodeTimelineCursor cursor) = some cursor := by
  have hbytes : bufferFrom lenient (encodeTimelineCursor cursor) =
      toUtf8 (toISOString cursor.timestamp ++ '|' :: cursor.id) := by
    rw [bufferFrom, encodeTimelineCursor, ofBase64url_toBase64url, Option.getD_some]
  have htext : bufferText lenient (toUtf8 (toISOString cursor.timestamp ++ '|' :: cursor.id)) =
      toISOString cursor.timestamp ++ '|' :: cursor.id := by
    rw [bufferText, ofUtf8_toUtf8, Option.getD_some]
  obtain ⟨htake, hdrop⟩ := span_separator (b := cursor.id) (separator_not_mem_toISOString cursor.timestamp)
  have hdate : newDate lenient (toISOString cursor.timestamp) = some cursor.timestamp := by
    rw [newDate, readIso_toISOString, Option.some_or]
  simp only [decodeTimelineCursor, hbytes, htext, htake, hdrop, hdate, List.tail_cons]
  rw [if_pos (by simp), if_neg h]

end Cursor

/-! ### The page -/

/-- `localeCompare` on texts of identifiers: hyphen, digits and the letters a to f are in the order of their codes. -/
def localeCompare (left right : List Char) : ℤ := if left < right then -1 else if left = right then 0 else 1

def compareNewestFirst (left right : MessageRow) : ℤ :=
  let difference := right.timestamp.ms - left.timestamp.ms
  if difference ≠ 0 then difference else localeCompare right.id.text left.id.text

/-- `(timestamp, id) < (…, …)`, or `TRUE` without a cursor. -/
def keyset : Option (Date × UuidBytes) → MessageRow → Bool
  | none, _ => true
  | some (timestamp, id), row =>
    decide (row.timestamp.ms < timestamp.ms ∨ (row.timestamp.ms = timestamp.ms ∧ row.id < id))

/-- `ORDER BY timestamp DESC, id DESC` -/
def orderNewest (left right : MessageRow) : Bool :=
  decide (right.timestamp.ms < left.timestamp.ms ∨ (right.timestamp.ms = left.timestamp.ms ∧ right.id ≤ left.id))

def inConversations (conversationIds : List UuidBytes) (row : MessageRow) : Bool :=
  match row.conversation_id with
  | none => false
  | some conversationId => decide (conversationId ∈ conversationIds)

def inContacts (contactIds : List UuidBytes) (row : MessageRow) : Bool :=
  match row.conversation_id, row.contact_id with
  | none, some contactId => decide (contactId ∈ contactIds)
  | _, _ => false

def scan (table : MessageTable) (condition : MessageRow → Bool) (probe : ℕ) : List MessageRow :=
  ((table.rows.filter condition).mergeSort orderNewest).take probe

/-- None if the database refuses the cursor's id. -/
def castCursor (lenient : Leniency) : Option TimelineCursor → Option (Option (Date × UuidBytes))
  | none => some none
  | some cursor => (castUuid lenient cursor.id).map fun id => some (cursor.timestamp, id)

def listCustomerTimeline (lenient : Leniency) (table : MessageTable) (threads : List CustomerThread) (limit : ℕ)
    (cursor : Option TimelineCursor) : Option TimelinePage :=
  let conversationIds := (threads.filterMap CustomerThread.conversationId).eraseDups
  let contactIds := (threads.filterMap CustomerThread.contactId).eraseDups
  if conversationIds = [] ∧ contactIds = [] then some ⟨[], false, none⟩
  else
    match castCursor lenient cursor with
    | none => none
    | some bound =>
      let probe := limit + 1
      let byConversation :=
        if conversationIds = [] then []
        else scan table (fun row => inConversations conversationIds row && keyset bound row) probe
      let byContact :=
        if contactIds = [] then []
        else scan table (fun row => inContacts contactIds row && keyset bound row) probe
      let merged := (byConversation ++ byContact).mergeSort fun left right => decide (compareNewestFirst left right ≤ 0)
      let page := merged.take limit
      some
        {
          messages := page
          hasMore := decide (limit < merged.length)
          nextCursor := page.getLast?.map fun last => encodeTimelineCursor ⟨last.timestamp, last.id.text⟩
        }

/-- The request with a cursor; one that does not decode is refused. -/
def requestTimeline (lenient : Leniency) (table : MessageTable) (threads : List CustomerThread) (limit : ℕ) :
    Option (List Char) → Option TimelinePage
  | none => listCustomerTimeline lenient table threads limit none
  | some rawCursor =>
    match decodeTimelineCursor lenient rawCursor with
    | none => none
    | some cursor => listCustomerTimeline lenient table threads limit (some cursor)

/-- The pages a client reads that starts without a cursor and follows `nextCursor` while `hasMore` is true. -/
def followTimeline (lenient : Leniency) (table : MessageTable) (threads : List CustomerThread) (limit fuel : ℕ) :
    Option (List TimelinePage) :=
  follow TimelinePage.hasMore TimelinePage.nextCursor (requestTimeline lenient table threads limit) fuel none

/-! ### The order of the scans and of the merge -/

def MessageRow.key (row : MessageRow) : ℤ ×ₗ UuidBytes := toLex (row.timestamp.ms, row.id)

theorem MessageTable.key_unique (table : MessageTable) : (table.rows.map MessageRow.key).Nodup := by
  refine List.Nodup.of_map (fun key : ℤ ×ₗ UuidBytes => (ofLex key).2) ?_
  rw [List.map_map]
  exact table.id_unique

theorem orderNewest_eq (left right : MessageRow) : orderNewest left right = decide (right.key ≤ left.key) := by
  refine decide_eq_decide.mpr ?_
  rw [MessageRow.key, MessageRow.key, Prod.Lex.toLex_le_toLex]

theorem keyset_eq (timestamp : Date) (id : UuidBytes) (row : MessageRow) :
    keyset (some (timestamp, id)) row = decide (row.key < toLex (timestamp.ms, id)) := by
  refine decide_eq_decide.mpr ?_
  rw [MessageRow.key, Prod.Lex.toLex_lt_toLex]

theorem localeCompare_text (u v : UuidBytes) : localeCompare u.text v.text ≤ 0 ↔ u ≤ v := by
  unfold localeCompare
  rcases lt_trichotomy u v with h | h | h
  · rw [if_pos (UuidBytes.text_strictMono h)]
    exact iff_of_true (by decide) h.le
  · rw [h, if_neg (lt_irrefl _), if_pos rfl]
    exact iff_of_true le_rfl le_rfl
  · have hlt := UuidBytes.text_strictMono h
    rw [if_neg (lt_asymm hlt), if_neg hlt.ne']
    exact iff_of_false (by decide) (not_le.mpr h)

theorem compareNewestFirst_eq (left right : MessageRow) :
    decide (compareNewestFirst left right ≤ 0) = decide (right.key ≤ left.key) := by
  refine decide_eq_decide.mpr ?_
  rw [MessageRow.key, MessageRow.key, Prod.Lex.toLex_le_toLex]
  simp only [compareNewestFirst]
  by_cases h : right.timestamp.ms - left.timestamp.ms = 0
  · have heq : right.timestamp.ms = left.timestamp.ms := by omega
    rw [if_neg (not_not.mpr h), localeCompare_text, heq]
    simp
  · have hne : right.timestamp.ms ≠ left.timestamp.ms := by omega
    rw [if_pos h]
    simp only [hne, false_and, or_false]
    omega

theorem scan_eq (table : MessageTable) (condition : MessageRow → Bool) (probe : ℕ) :
    scan table condition probe = (newestFirst MessageRow.key (table.rows.filter condition)).take probe := by
  rw [scan, newestFirst]
  exact congrArg (fun le => ((table.rows.filter condition).mergeSort le).take probe)
    (funext fun left => funext fun right => orderNewest_eq left right)

/-! ### Pages of the listing -/

/-- The messages of the threads: of their conversations, or without a conversation and of their contacts. -/
def InThreads (threads : List CustomerThread) (row : MessageRow) : Prop :=
  (∃ id, row.conversation_id = some id ∧ some id ∈ threads.map CustomerThread.conversationId) ∨
    (row.conversation_id = none ∧ ∃ id, row.contact_id = some id ∧ some id ∈ threads.map CustomerThread.contactId)

def selects (threads : List CustomerThread) (row : MessageRow) : Bool :=
  inConversations (threads.filterMap CustomerThread.conversationId).eraseDups row ||
    inContacts (threads.filterMap CustomerThread.contactId).eraseDups row

theorem selects_iff (threads : List CustomerThread) (row : MessageRow) : selects threads row = true ↔ InThreads threads row := by
  rw [selects, Bool.or_eq_true, InThreads]
  refine or_congr ?_ ?_
  · cases hrow : row.conversation_id with
    | none => simp [inConversations, hrow]
    | some id => simp [inConversations, hrow]
  · cases hrow : row.conversation_id with
    | some id => simp [inContacts, hrow]
    | none =>
      cases hcontact : row.contact_id with
      | none => simp [inContacts, hrow, hcontact]
      | some id => simp [inContacts, hrow, hcontact]

theorem not_in_both {conversationIds contactIds : List UuidBytes} {row : MessageRow}
    (h : inConversations conversationIds row = true) : inContacts contactIds row = false := by
  cases hrow : row.conversation_id with
  | none => simp [inConversations, hrow] at h
  | some id => simp [inContacts, hrow]

theorem scan_nil (table : MessageTable) (condition : MessageRow → Bool) (probe : ℕ) (h : ∀ row, condition row = false) :
    scan table condition probe = [] := by
  have hnone : table.rows.filter condition = [] := List.filter_eq_nil_iff.mpr fun row _ => by simp [h row]
  rw [scan, hnone, List.mergeSort_nil, List.take_nil]

def cursorText (row : MessageRow) : List Char := encodeTimelineCursor ⟨row.timestamp, row.id.text⟩

/-- The rows of the threads that a cursor leaves, from the newest to the oldest. -/
def listing (table : MessageTable) (threads : List CustomerThread) (bound : Option (Date × UuidBytes)) : List MessageRow :=
  newestFirst MessageRow.key (table.rows.filter fun row => selects threads row && keyset bound row)

section Pages

variable {lenient : Leniency} {table : MessageTable} {threads : List CustomerThread} {limit : ℕ}

theorem descending_listing (bound : Option (Date × UuidBytes)) : Descending MessageRow.key (listing table threads bound) :=
  descending_newestFirst (nodup_keys_filter _ table.key_unique)

theorem listCustomerTimeline_cuts {cursor : Option TimelineCursor} {bound : Option (Date × UuidBytes)}
    (hcast : castCursor lenient cursor = some bound) :
    ∃ page, listCustomerTimeline lenient table threads limit cursor = some page ∧
      Cuts TimelinePage.messages TimelinePage.hasMore TimelinePage.nextCursor cursorText limit page
        (listing table threads bound) := by
  simp only [listCustomerTimeline, hcast]
  by_cases hnone : (threads.filterMap CustomerThread.conversationId).eraseDups = [] ∧
      (threads.filterMap CustomerThread.contactId).eraseDups = []
  · rw [if_pos hnone]
    have hempty : listing table threads bound = [] := by
      have hfilter : (table.rows.filter fun row => selects threads row && keyset bound row) = [] := by
        refine List.filter_eq_nil_iff.mpr fun row _ => ?_
        cases hconv : row.conversation_id <;> cases hcontact : row.contact_id <;>
          simp [selects, inConversations, inContacts, hnone.1, hnone.2, hconv, hcontact]
      rw [listing, hfilter, newestFirst, List.mergeSort_nil]
    refine ⟨_, rfl, ?_, ?_, ?_⟩ <;> simp [hempty]
  · rw [if_neg hnone]
    have hconversation : (if (threads.filterMap CustomerThread.conversationId).eraseDups = [] then []
        else scan table (fun row => inConversations (threads.filterMap CustomerThread.conversationId).eraseDups row &&
          keyset bound row) (limit + 1)) =
        (newestFirst MessageRow.key (table.rows.filter fun row =>
          inConversations (threads.filterMap CustomerThread.conversationId).eraseDups row && keyset bound row)).take (limit + 1) := by
      rw [← scan_eq]
      by_cases hids : (threads.filterMap CustomerThread.conversationId).eraseDups = []
      · rw [if_pos hids]
        refine (scan_nil table _ _ fun row => ?_).symm
        cases hconv : row.conversation_id <;> simp [inConversations, hconv, hids]
      · rw [if_neg hids]
    have hcontact : (if (threads.filterMap CustomerThread.contactId).eraseDups = [] then []
        else scan table (fun row => inContacts (threads.filterMap CustomerThread.contactId).eraseDups row &&
          keyset bound row) (limit + 1)) =
        (newestFirst MessageRow.key (table.rows.filter fun row =>
          inContacts (threads.filterMap CustomerThread.contactId).eraseDups row && keyset bound row)).take (limit + 1) := by
      rw [← scan_eq]
      by_cases hids : (threads.filterMap CustomerThread.contactId).eraseDups = []
      · rw [if_pos hids]
        refine (scan_nil table _ _ fun row => ?_).symm
        cases hconv : row.conversation_id <;> cases hcontact : row.contact_id <;> simp [inContacts, hconv, hcontact, hids]
      · rw [if_neg hids]
    have hsort : ∀ l : List MessageRow, (l.mergeSort fun left right => decide (compareNewestFirst left right ≤ 0)) =
        newestFirst MessageRow.key l := fun l =>
      congrArg (fun le => l.mergeSort le) (funext fun left => funext fun right => compareNewestFirst_eq left right)
    rw [hconversation, hcontact, hsort]
    -- the merged scans begin with one row more than the page
    have hmerged := take_merged (k := limit + 1) table.key_unique
      (p := fun row => inConversations (threads.filterMap CustomerThread.conversationId).eraseDups row && keyset bound row)
      (q := fun row => inContacts (threads.filterMap CustomerThread.contactId).eraseDups row && keyset bound row)
      (fun row _ hboth => by
        have hfirst := (Bool.and_eq_true _ _).mp hboth.1
        have hsecond := (Bool.and_eq_true _ _).mp hboth.2
        rw [not_in_both hfirst.1] at hsecond
        exact absurd hsecond.1 Bool.false_ne_true)
    have hwhole : (table.rows.filter fun row =>
        (inConversations (threads.filterMap CustomerThread.conversationId).eraseDups row && keyset bound row) ||
          (inContacts (threads.filterMap CustomerThread.contactId).eraseDups row && keyset bound row)) =
        table.rows.filter fun row => selects threads row && keyset bound row :=
      List.filter_congr fun row _ => by rw [selects, Bool.and_or_distrib_right]
    rw [hwhole, ← listing] at hmerged
    generalize newestFirst MessageRow.key (_ ++ _) = merged at hmerged ⊢
    have htake : merged.take limit = (listing table threads bound).take limit := by
      have hcut := congrArg (List.take limit) hmerged
      rwa [List.take_take, List.take_take, min_eq_left (Nat.le_succ limit)] at hcut
    have hlength := congrArg List.length hmerged
    rw [List.length_take, List.length_take] at hlength
    refine ⟨_, rfl, htake, ?_, ?_⟩
    · simp only [decide_eq_true_eq]
      omega
    · simp only [htake]
      rfl

theorem listing_after {before after : List MessageRow} {row : MessageRow}
    (h : listing table threads none = before ++ row :: after) :
    listing table threads (some (row.timestamp, row.id)) = after := by
  have hdesc : Descending MessageRow.key (listing table threads none) := descending_listing none
  have hall : listing table threads none = newestFirst MessageRow.key (table.rows.filter (selects threads)) := by
    rw [listing]
    exact congrArg (newestFirst MessageRow.key) (List.filter_congr fun row _ => by rw [keyset, Bool.and_true])
  have hkeyset : listing table threads (some (row.timestamp, row.id)) =
      (listing table threads none).filter fun other => decide (other.key < row.key) := by
    rw [hall, ← newestFirst_filter (nodup_keys_filter _ table.key_unique), List.filter_filter, listing]
    refine congrArg (newestFirst MessageRow.key) (List.filter_congr fun other _ => ?_)
    rw [keyset_eq, Bool.and_comm]
    rfl
  rw [h] at hdesc
  rw [hkeyset, h, filter_lt_key hdesc]

theorem requestTimeline_serves :
    Serves TimelinePage.messages TimelinePage.hasMore TimelinePage.nextCursor (requestTimeline lenient table threads limit)
      cursorText limit (listing table threads none) where
  first := listCustomerTimeline_cuts (show castCursor lenient none = some none from rfl)
  after := by
    intro before row rest hsplit
    have hdecode : decodeTimelineCursor lenient (cursorText row) = some ⟨row.timestamp, row.id.text⟩ :=
      decode_encode lenient row.id.text_ne_nil
    have hcast : castCursor lenient (some ⟨row.timestamp, row.id.text⟩) = some (some (row.timestamp, row.id)) := by
      rw [castCursor, castUuid, UuidBytes.ofText_text, Option.some_or, Option.map_some]
    obtain ⟨page, hpage, hcuts⟩ := @listCustomerTimeline_cuts lenient table threads limit _ _ hcast
    rw [listing_after hsplit] at hcuts
    refine ⟨page, ?_, hcuts⟩
    simp only [requestTimeline, hdecode, hpage]

end Pages

/-- **Timeline pagination.**  With fuel for the rows of the table a client that follows the cursors gets all messages
of the threads, each once, from the newest to the oldest; a page says that there is more if and only if a message is
still to come; and a cursor is given back by its text. -/
theorem timeline_pages_complete (lenient : Leniency) (table : MessageTable) (threads : List CustomerThread) (limit fuel : ℕ)
    (hlimit : 1 ≤ limit) (hfuel : table.rows.length < fuel) :
    (∃ pages, followTimeline lenient table threads limit fuel = some pages ∧
      (∀ row, row ∈ pages.flatMap TimelinePage.messages ↔ row ∈ table.rows ∧ InThreads threads row) ∧
      (pages.flatMap TimelinePage.messages).Pairwise (fun left right =>
        right.timestamp.ms < left.timestamp.ms ∨ (right.timestamp.ms = left.timestamp.ms ∧ right.id < left.id)) ∧
      ∀ pre page post, pages = pre ++ page :: post →
        (page.hasMore = true ↔
          ∃ row ∈ table.rows, InThreads threads row ∧ row ∉ (pre ++ [page]).flatMap TimelinePage.messages)) ∧
    ∀ cursor : TimelineCursor, cursor.id ≠ [] →
      decodeTimelineCursor lenient (encodeTimelineCursor cursor) = some cursor := by
  refine ⟨?_, fun cursor hid => decode_encode lenient hid⟩
  have hmem : ∀ row, row ∈ listing table threads none ↔ row ∈ table.rows ∧ InThreads threads row := by
    intro row
    rw [listing, mem_newestFirst, List.mem_filter, keyset, Bool.and_true, selects_iff]
  have hlen : (listing table threads none).length < fuel := by
    have hle : (listing table threads none).length ≤ table.rows.length := by
      rw [listing, newestFirst, List.length_mergeSort]
      exact List.length_filter_le _ _
    omega
  obtain ⟨pages, hfollow, hall, hmores⟩ := follow_serves (@requestTimeline_serves lenient _ _ _) hlimit hlen
  have hdesc : Descending MessageRow.key (listing table threads none) := descending_listing none
  refine ⟨pages, hfollow, fun row => by rw [hall, hmem], ?_, fun pre page post hpages => ?_⟩
  · rw [hall]
    refine hdesc.imp fun {left right} hlt => ?_
    rwa [MessageRow.key, MessageRow.key, Prod.Lex.toLex_lt_toLex] at hlt
  · rw [hmores pre page post hpages]
    have hsplit : (pre ++ [page]).flatMap TimelinePage.messages ++ post.flatMap TimelinePage.messages =
        listing table threads none := by
      rw [← hall, hpages, ← List.flatMap_append, List.append_assoc, List.singleton_append]
    have hnodup := hdesc.nodup
    rw [← hsplit, List.nodup_append] at hnodup
    constructor
    · intro hne
      obtain ⟨row, hrow⟩ := List.exists_mem_of_ne_nil _ hne
      have hlisted := (hmem row).mp (hsplit ▸ List.mem_append_right _ hrow)
      exact ⟨row, hlisted.1, hlisted.2, fun hread => hnodup.2.2 row hread row hrow rfl⟩
    · rintro ⟨row, hrow, hthreads, hnot⟩ hnil
      have hlisted := (hmem row).mpr ⟨hrow, hthreads⟩
      rw [← hsplit, hnil, List.append_nil] at hlisted
      exact hnot hlisted

/-- Two messages of one instant, in the conversation and without one. -/
def tiedMessages : MessageTable where
  rows :=
    [
      ⟨.repeated 0, ⟨1700000000123, by decide⟩, some (.repeated 7), none⟩,
      ⟨.repeated 1, ⟨1700000000123, by decide⟩, none, some (.repeated 9)⟩
    ]
  id_unique := by decide

/-- They are on two pages. -/
theorem timeline_pages_complete_tied :
    ∃ pages, followTimeline ⟨fun _ => [], fun _ => [], fun _ => none, fun _ => none⟩ tiedMessages
        [⟨some (.repeated 7), some (.repeated 9)⟩] 1 3 = some pages ∧
      ∀ row ∈ tiedMessages.rows, row ∈ pages.flatMap TimelinePage.messages := by
  obtain ⟨⟨pages, hfollow, hmem, -, -⟩, -⟩ := timeline_pages_complete ⟨fun _ => [], fun _ => [], fun _ => none, fun _ => none⟩
    tiedMessages [⟨some (.repeated 7), some (.repeated 9)⟩] 1 3 (by decide) (by decide)
  refine ⟨pages, hfollow, fun row hrow => (hmem row).mpr ⟨hrow, ?_⟩⟩
  simp only [tiedMessages, List.mem_cons, List.not_mem_nil, or_false] at hrow
  rcases hrow with rfl | rfl
  · exact .inl ⟨_, rfl, by simp⟩
  · exact .inr ⟨rfl, _, rfl, by simp⟩

end TeamInbox.Api
