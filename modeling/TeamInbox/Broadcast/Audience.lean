import TeamInbox.Broadcast.Records
import Mathlib.Data.List.Sort

/-!
# TeamInbox.Broadcast.Audience — the recipients of a broadcast

`resolveBulkAudience` turns an audience (contacts and tags, on one connection or on all) into recipients, each
eligible or skipped for a reason.  Every contact of the audience is in one of the two lists, once
(`resolveBulkAudience_contacts`).
-/

namespace TeamInbox.Broadcast

/-! ### Personalization -/

def isSpace (c : Char) : Bool :=
  c.val ∈ [9, 10, 11, 12, 13, 32, 0xA0, 0x1680, 0x2028, 0x2029, 0x202F, 0x205F, 0x3000, 0xFEFF] ||
    (0x2000 ≤ c.val && c.val ≤ 0x200A)

def trim (s : List Char) : List Char := ((s.dropWhile isSpace).reverse.dropWhile isSpace).reverse

/-- A variable in double braces at the head of a text, and what follows it. -/
def templateToken : List Char → Option (List Char × List Char)
  | '{' :: '{' :: cs =>
    let cs := cs.dropWhile isSpace
    let token := cs.takeWhile fun c => c.isAlphanum || c == '_' || c == '.'
    match (cs.drop token.length).dropWhile isSpace with
    | '}' :: '}' :: rest => if token = [] then none else some (token, rest)
    | _ => none
  | _ => none

/-- The variables of a text and the characters between them; `n` bounds the length. -/
def templatePieces : ℕ → List Char → List (List Char ⊕ Char)
  | 0, _ => []
  | _, [] => []
  | n + 1, c :: cs => match templateToken (c :: cs) with
    | some (token, rest) => .inl token :: templatePieces n rest
    | none => .inr c :: templatePieces n cs

def templateVariables : List (List Char) := ["name".toList, "firstName".toList]

def findUnknownTemplateVariables (content : String) : List (List Char) :=
  ((templatePieces content.length content.toList).filterMap fun
    | .inl token => if token ∈ templateVariables then none else some token
    | .inr _ => none).eraseDups

/-- A row of `contacts`. -/
structure AudienceContact where
  id : ℕ
  createdAt : ℕ
  jid : Option String
  phoneNumber : Option String
  pushName : Option String
  customName : Option String
  isGroup : Bool
  isBlocked : Bool
  connectionId : Option ℕ
  deriving DecidableEq

structure AudienceConnection where
  name : Option String
  archived : Bool
  deriving DecidableEq

structure ResolvedRecipient where
  contactId : ℕ
  jid : Option String
  connectionId : Option ℕ
  connectionName : Option String
  customName : Option String
  pushName : Option String
  phoneNumber : Option String
  skipReason : Option BulkRecipientSkipReason
  deriving DecidableEq

def resolveRecipientName (r : ResolvedRecipient) : List Char :=
  let custom := trim ((r.customName.getD "").toList)
  let push := trim ((r.pushName.getD "").toList)
  if custom ≠ [] then custom else if push ≠ [] then push else (r.phoneNumber.getD "").toList

def renderBulkTemplate (content : String) (r : ResolvedRecipient) : List Char :=
  let name := resolveRecipientName r
  let firstName := name.takeWhile fun c => !isSpace c
  (templatePieces content.length content.toList).flatMap fun
    | .inl token =>
      if token = "name".toList then name else if token = "firstName".toList then firstName else []
    | .inr c => [c]

/-! ### Audience resolution -/

structure BulkJobAudience where
  tagIds : List ℕ
  contactIds : List ℕ
  connectionId : Option ℕ
  deriving DecidableEq

structure Directory where
  contacts : List AudienceContact
  ids : (contacts.map (·.id)).Nodup
  connections : ℕ → Option AudienceConnection
  contactTags : List (ℕ × ℕ)

def Directory.selects (d : Directory) (audience : BulkJobAudience) (contact : AudienceContact) : Bool :=
  decide (contact.id ∈ audience.contactIds) ||
    d.contactTags.any fun t => decide (t.1 = contact.id) && decide (t.2 ∈ audience.tagIds)

def Directory.connectionOf (d : Directory) (contact : AudienceContact) : Option (ℕ × AudienceConnection) :=
  contact.connectionId.bind fun c => (d.connections c).map (c, ·)

structure ResolvedLists where
  eligible : List ResolvedRecipient
  skipped : List ResolvedRecipient
  seenJids : List String

def skipReasonFor (d : Directory) (audience : BulkJobAudience) (seenJids : List String)
    (contact : AudienceContact) : Option BulkRecipientSkipReason :=
  let jid := contact.jid.getD ""
  if contact.isGroup then some .isGroup
  else if jid = "" then some .noJid
  else if contact.isBlocked then some .blocked
  else
    match d.connectionOf contact with
    | none => some .noConnection
    | some (connectionId, connection) =>
      if connection.archived then some .connectionArchived
      else if audience.connectionId.any fun c => decide (connectionId ≠ c) then some .connectionFiltered
      else if jid ∈ seenJids then some .duplicateJid
      else none

def resolveContact (d : Directory) (audience : BulkJobAudience) (lists : ResolvedLists)
    (contact : AudienceContact) : ResolvedLists :=
  let connection := d.connectionOf contact
  let skipReason := skipReasonFor d audience lists.seenJids contact
  let recipient : ResolvedRecipient := ⟨contact.id, contact.jid, connection.map (·.1),
    connection.bind (·.2.name), contact.customName, contact.pushName, contact.phoneNumber, skipReason⟩
  if skipReason.isSome then { lists with skipped := lists.skipped ++ [recipient] }
  else
    { lists with
      eligible := lists.eligible ++ [recipient]
      seenJids := contact.jid.getD "" :: lists.seenJids }

/-- The contacts the query returns, in its order. -/
def Directory.audienceContacts (d : Directory) (audience : BulkJobAudience) : List AudienceContact :=
  (d.contacts.filter (d.selects audience)).insertionSort fun a b =>
    a.createdAt < b.createdAt ∨ (a.createdAt = b.createdAt ∧ a.id ≤ b.id)

/-- Strings in the order of their UTF-16 code units. -/
def utf16Units (s : String) : List ℕ :=
  s.toList.flatMap fun c =>
    let n := c.toNat
    if n < 0x10000 then [n] else [0xD800 + (n - 0x10000) / 0x400, 0xDC00 + (n - 0x10000) % 0x400]

def BulkRecipientSkipReason.text : BulkRecipientSkipReason → String
  | .noJid => "no_jid"
  | .noConnection => "no_connection"
  | .connectionArchived => "connection_archived"
  | .connectionFiltered => "connection_filtered"
  | .connectionChanged => "connection_changed"
  | .isGroup => "is_group"
  | .blocked => "blocked"
  | .duplicateJid => "duplicate_jid"
  | .contactMissing => "contact_missing"

/-- `digest` is SHA-256 in hexadecimal. -/
def computeAudienceHash (digest : String → String) (eligible skipped : List ResolvedRecipient) : String :=
  let lines := (eligible.map fun r => "e:" ++ toString r.contactId ++ ":" ++
      ((r.connectionId.map fun c => toString c).getD "") ++ ":" ++ r.jid.getD "") ++
    skipped.map fun r => "s:" ++ toString r.contactId ++ ":" ++ ((r.skipReason.map (·.text)).getD "")
  digest ("\n".intercalate (lines.insertionSort fun a b => utf16Units a ≤ utf16Units b))

structure ResolvedAudience where
  eligible : List ResolvedRecipient
  skipped : List ResolvedRecipient
  audienceHash : String
  deriving DecidableEq

def resolveBulkAudience (digest : String → String) (d : Directory) (audience : BulkJobAudience) :
    ResolvedAudience :=
  let lists := (d.audienceContacts audience).foldl (resolveContact d audience) ⟨[], [], []⟩
  ⟨lists.eligible, lists.skipped, computeAudienceHash digest lists.eligible lists.skipped⟩

def ResolvedAudience.recipients (resolved : ResolvedAudience) : List ResolvedRecipient :=
  resolved.eligible ++ resolved.skipped

/-! ### Every contact once -/

section Resolution

variable {d : Directory} {audience : BulkJobAudience}

theorem resolveContact_spec (d : Directory) (audience : BulkJobAudience) (lists : ResolvedLists) (contact : AudienceContact) :
    ∃ r : ResolvedRecipient, r.contactId = contact.id ∧
      ((r.skipReason = none ∧ (resolveContact d audience lists contact).eligible = lists.eligible ++ [r] ∧
          (resolveContact d audience lists contact).skipped = lists.skipped) ∨
        (r.skipReason ≠ none ∧ (resolveContact d audience lists contact).eligible = lists.eligible ∧
          (resolveContact d audience lists contact).skipped = lists.skipped ++ [r])) := by
  unfold resolveContact
  dsimp only
  cases hskip : skipReasonFor d audience lists.seenJids contact with
  | none => exact ⟨_, rfl, .inl ⟨rfl, rfl, rfl⟩⟩
  | some reason => exact ⟨_, rfl, .inr ⟨Option.some_ne_none _, rfl, rfl⟩⟩

theorem foldl_resolveContact (d : Directory) (audience : BulkJobAudience) (contacts : List AudienceContact)
    (lists : ResolvedLists)
    (heligible : ∀ r ∈ lists.eligible, r.skipReason = none) (hskipped : ∀ r ∈ lists.skipped, r.skipReason ≠ none) :
    let result := contacts.foldl (resolveContact d audience) lists
    ((result.eligible ++ result.skipped).map (·.contactId)).Perm
        ((lists.eligible ++ lists.skipped).map (·.contactId) ++ contacts.map (·.id)) ∧
      (∀ r ∈ result.eligible, r.skipReason = none) ∧ ∀ r ∈ result.skipped, r.skipReason ≠ none := by
  induction contacts generalizing lists with
  | nil =>
    refine ⟨?_, heligible, hskipped⟩
    rw [List.map_nil, List.append_nil]
    exact List.Perm.refl _
  | cons contact contacts ih =>
    obtain ⟨r, hid, hcase⟩ := resolveContact_spec d audience lists contact
    rw [List.map_cons]
    rcases hcase with ⟨hreason, he, hs⟩ | ⟨hreason, he, hs⟩
    · obtain ⟨hperm, hrest⟩ := ih (resolveContact d audience lists contact)
        (by
          intro t ht
          rw [he] at ht
          rcases List.mem_append.mp ht with ht | ht
          · exact heligible t ht
          · rw [List.mem_singleton.mp ht]
            exact hreason)
        (by rw [hs]; exact hskipped)
      refine ⟨hperm.trans ?_, hrest⟩
      rw [he, hs]
      simp only [List.map_append, List.map_cons, List.map_nil, hid, List.append_assoc]
      refine List.Perm.append_left _ ?_
      simp only [List.singleton_append]
      exact List.perm_middle.symm
    · obtain ⟨hperm, hrest⟩ := ih (resolveContact d audience lists contact) (by rw [he]; exact heligible)
        (by
          intro t ht
          rw [hs] at ht
          rcases List.mem_append.mp ht with ht | ht
          · exact hskipped t ht
          · rw [List.mem_singleton.mp ht]
            exact hreason)
      refine ⟨hperm.trans ?_, hrest⟩
      rw [he, hs]
      simp only [List.map_append, List.map_cons, List.map_nil, hid, List.append_assoc, List.singleton_append]
      exact List.Perm.refl _

variable (digest : String → String)

theorem resolveBulkAudience_contacts (d : Directory) (audience : BulkJobAudience) :
    ((resolveBulkAudience digest d audience).recipients.map (·.contactId)).Nodup ∧
      ∀ c, c ∈ (resolveBulkAudience digest d audience).recipients.map (·.contactId) ↔
        ∃ contact ∈ d.contacts, contact.id = c ∧ d.selects audience contact = true := by
  obtain ⟨hperm, -⟩ := foldl_resolveContact d audience (d.audienceContacts audience) ⟨[], [], []⟩
    (fun _ hr => absurd hr List.not_mem_nil) fun _ hr => absurd hr List.not_mem_nil
  simp only [List.append_nil, List.map_nil, List.nil_append] at hperm
  have hsort : (d.audienceContacts audience).Perm (d.contacts.filter (d.selects audience)) :=
    List.perm_insertionSort _ _
  have hall := hperm.trans (hsort.map (·.id))
  constructor
  · refine hall.nodup_iff.mpr ?_
    exact d.ids.sublist (List.filter_sublist.map _)
  · intro c
    refine hall.mem_iff.trans ?_
    simp only [List.mem_map, List.mem_filter]
    constructor
    · rintro ⟨contact, ⟨hmem, hsel⟩, hid⟩
      exact ⟨contact, hmem, hid, hsel⟩
    · rintro ⟨contact, hmem, hid, hsel⟩
      exact ⟨contact, ⟨hmem, hsel⟩, hid⟩

theorem resolveBulkAudience_reasons (d : Directory) (audience : BulkJobAudience) :
    (∀ r ∈ (resolveBulkAudience digest d audience).eligible, r.skipReason = none) ∧
      ∀ r ∈ (resolveBulkAudience digest d audience).skipped, r.skipReason ≠ none :=
  (foldl_resolveContact d audience (d.audienceContacts audience) ⟨[], [], []⟩ (fun _ hr => absurd hr List.not_mem_nil)
    fun _ hr => absurd hr List.not_mem_nil).2

end Resolution

end TeamInbox.Broadcast
