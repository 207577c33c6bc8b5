import TeamInbox.Channels.EventInbox
import TeamInbox.Lib.Json
import Mathlib.Data.String.Basic

/-!
# TeamInbox.Channels.EventDigest — the digest of an event and its stored copy

`channelEventPayloadDigest` prints an event without its `receivedAt`, with the keys sorted, and hashes the text.  The
inbox keeps the event as JSON: a key whose value is `undefined` is not stored, and the keys come back in any order.
The comparison of keys, the hash and what `Date.parse` reads are parameters.
-/

namespace TeamInbox.Channels

open TeamInbox.Lib

/-! ### Events -/

def field (k : String) (event : Js .object) : Js .value :=
  ((event.entries.find? fun p => p.1 = k).map Prod.snd).getD .undefined

def channels : List String := ["whatsapp", "messenger", "instagram", "telegram", "line", "viber", "email"]

def providers : List String :=
  ["whatsapp_linked_device", "meta_cloud", "telegram_bot", "line_messaging", "viber_bot", "gmail", "microsoft_graph",
    "imap_smtp"]

/-- What `trim` removes. -/
def trimmed (c : Char) : Bool :=
  let n := c.toNat
  (9 ≤ n && n ≤ 13) || n = 32 || n = 160 || n = 5760 || (8192 ≤ n && n ≤ 8202) || n = 8232 || n = 8233 || n = 8239 ||
    n = 8287 || n = 12288 || n = 65279

def nonBlank : Js .value → Bool
  | .string s => s.toList.any fun c => !trimmed c
  | _ => false

def isOne : Js .value → Bool
  | .number x => x.text = ['1']
  | _ => false

def oneOf (known : List String) : Js .value → Bool
  | .string s => known.contains s
  | _ => false

def isChannel : Js .value → Bool := oneOf channels

def isChannelProvider : Js .value → Bool := oneOf providers

section Contract

-- whether `Date.parse` gives a finite time
variable (dateParses : String → Bool)

def isTimestamp : Js .value → Bool
  | .string s => dateParses s
  | _ => false

def isTimestampOrAbsent : Js .value → Bool
  | .undefined => true
  | v => isTimestamp dateParses v

def assertNormalizedChannelEvent (event : Js .object) : Except String Unit :=
  if !isOne (field "contractVersion" event) then .error "unsupported channel event contract version"
  else if !nonBlank (field "eventId" event) then .error "channel event ID is required"
  else if !nonBlank (field "companyId" event) then .error "company ID is required"
  else if !nonBlank (field "channelAccountId" event) then .error "channel account ID is required"
  else if !isChannel (field "channel" event) then .error "unsupported channel"
  else if !isChannelProvider (field "provider" event) then .error "unsupported provider"
  else if !isTimestamp dateParses (field "receivedAt" event) then .error "receivedAt must be an ISO timestamp"
  else if !isTimestampOrAbsent dateParses (field "providerOccurredAt" event) then
    .error "providerOccurredAt must be an ISO timestamp"
  else .ok ()

/-- An event the contract accepts; an object has a key once. -/
structure NormalizedChannelEvent where
  fields : Js .object
  unique : (Js.obj fields).KeysApart (· ≠ ·)
  accepted : assertNormalizedChannelEvent dateParses fields = .ok ()

end Contract

/-! ### The digest -/

section Digest

variable (localeCompare : String → String → Ordering) {D : Type} (sha256 : List Char → D)

def stableJson : {i : JsPart} → Js i → Printed i
  | _, .arr es => brackets (stableJson es)
  | _, .obj es => braces (sortKeys localeCompare (stableJson es))
  | _, .nil => []
  | _, .cons v es => stableJson v :: stableJson es
  | _, .empty => []
  | _, .entry k v es => (k, stableJson v) :: stableJson es
  -- `JSON.stringify` of a scalar; `undefined` has no text and becomes `null` too
  | _, .undefined => Js.undefined.print
  | _, .null => Js.null.print
  | _, .notFinite => Js.notFinite.print
  | _, .bool b => (Js.bool b).print
  | _, .number x => (Js.number x).print
  | _, .string s => (Js.string s).print

attribute [local simp] stableJson

def without (k : String) : {i : JsPart} → Js i → Js i
  | _, .entry l v es => if l = k then without k es else .entry l v (without k es)
  | _, v => v

attribute [local simp] without

def providerEvent (event : Js .object) : Js .object := without "receivedAt" event

def channelEventPayloadDigest (event : Js .object) : D :=
  sha256 (stableJson localeCompare (.obj (providerEvent event)))

/-! ### The stored copy -/

def isUndefined {i : JsPart} : Js i → Bool
  | .undefined => true
  | _ => false

/-- `normalized_event`, up to the order of the keys. -/
def stored : {i : JsPart} → Js i → Js i
  | _, .undefined | _, .null | _, .notFinite => .null
  | _, .bool b => .bool b
  | _, .number x => .number x
  | _, .string s => .string s
  | _, .arr es => .arr (stored es)
  | _, .obj es => .obj (stored es)
  | _, .nil => .nil
  | _, .cons v es => .cons (stored v) (stored es)
  | _, .empty => .empty
  | _, .entry k v es => if isUndefined v then stored es else .entry k (stored v) (stored es)

attribute [local simp] stored

def Defined : {i : JsPart} → Js i → Prop
  | _, .arr es | _, .obj es => Defined es
  | _, .cons v es => Defined v ∧ Defined es
  | _, .entry _ v es => isUndefined v = false ∧ Defined v ∧ Defined es
  | _, _ => True

attribute [local simp] Defined

/-! ### What is claimed -/

/-- The event is read back as `copy`. -/
def ReadBack (event copy : Js .object) : Prop := Reordered (stored event) copy

/-- The digest of an event is the digest of its stored copy and of every redelivery of it, and a retry does not
find the row under another digest. -/
structure DigestLasts [DecidableEq D] (event : Js .object) : Prop where
  survives : ∀ copy, ReadBack event copy →
    channelEventPayloadDigest localeCompare sha256 copy = channelEventPayloadDigest localeCompare sha256 event
  retried : ∀ copy, ReadBack event copy → ∀ now, ∀ s : Inbox (Js .object) D, ∀ r, s.row = some r →
    r.status = .pending → r.payloadDigest = channelEventPayloadDigest localeCompare sha256 event →
    reserveInboxEvent (channelEventPayloadDigest localeCompare sha256) now s copy = (s, .reserved copy)
  steady : ∀ other, Reordered (providerEvent event) (providerEvent other) →
    channelEventPayloadDigest localeCompare sha256 other = channelEventPayloadDigest localeCompare sha256 event

/-- Events that differ in what is stored of them, `receivedAt` apart, have different digests. -/
def DigestTells (event other : Js .object) : Prop :=
  ¬ Reordered (stored (providerEvent event)) (stored (providerEvent other)) →
    channelEventPayloadDigest localeCompare sha256 event ≠ channelEventPayloadDigest localeCompare sha256 other

/-- Apart from `receivedAt` no key is `undefined`, and no two keys of an object tie. -/
def Storable (event : Js .object) : Prop :=
  Defined (providerEvent event) ∧ (Js.obj (providerEvent event)).KeysApart fun k l => localeCompare k l ≠ .eq

variable {localeCompare} {sha256}

/-! ### Printing -/

theorem stableJson_eq {i : JsPart} (v : Js i) : stableJson localeCompare v = (v.canon localeCompare).print := by
  induction v with
  | undefined | null | bool | notFinite | number | string | nil | empty => rfl
  | arr es ih => exact congrArg brackets ih
  | cons v es ihv ihes => exact congrArg₂ List.cons ihv ihes
  | entry k v es ihv ihes => exact congrArg₂ (fun t ts => (k, t) :: ts) ihv ihes
  | obj es ih =>
    rw [stableJson, ih, Js.canon, Js.print, Js.print_entries, Js.print_entries, Js.entries_ofEntries, sortKeys_map]

theorem digest_eq_iff (hsha : Function.Injective sha256) {event other : Js .object} :
    channelEventPayloadDigest localeCompare sha256 event = channelEventPayloadDigest localeCompare sha256 other ↔
      (Js.obj (providerEvent event)).canon localeCompare = (Js.obj (providerEvent other)).canon localeCompare := by
  unfold channelEventPayloadDigest
  rw [hsha.eq_iff, stableJson_eq, stableJson_eq]
  exact ⟨Js.print_injective (Js.canon_plain _ _) (Js.canon_plain _ _), congrArg Js.print⟩

theorem canon_nulled {i : JsPart} (v : Js i) : v.nulled.canon localeCompare = v.canon localeCompare := by
  induction v with
  | undefined | null | bool | notFinite | number | string | nil | empty => rfl
  | arr es ih => exact congrArg Js.arr ih
  | cons v es ihv ihes => exact congrArg₂ Js.cons ihv ihes
  | entry k v es ihv ihes => exact congrArg₂ (Js.entry k) ihv ihes
  | obj es ih => rw [Js.nulled, Js.canon, Js.canon, ih]

theorem keys_nulled {i : JsPart} (v : Js i) : v.nulled.keys = v.keys := by
  induction v with
  | entry k v es _ ih => exact congrArg (k :: ·) ih
  | _ => rfl

theorem keysApart_nulled {R : String → String → Prop} {i : JsPart} {v : Js i} (h : v.KeysApart R) :
    v.nulled.KeysApart R := by
  induction v with
  | undefined | null | bool | notFinite | number | string | nil | empty => trivial
  | arr es ih => exact ih h
  | cons v es ihv ihes => exact ⟨ihv h.1, ihes h.2⟩
  | entry k v es ihv ihes => exact ⟨ihv h.1, ihes h.2⟩
  | obj es ih => exact ⟨by rw [keys_nulled]; exact h.1, ih h.2⟩

/-! ### Storing -/

theorem stored_eq {i : JsPart} {v : Js i} (h : Defined v) : stored v = v.nulled := by
  induction v with
  | undefined | null | bool | notFinite | number | string | nil | empty => rfl
  | arr es ih => exact congrArg Js.arr (ih h)
  | obj es ih => exact congrArg Js.obj (ih h)
  | cons v es ihv ihes => exact congrArg₂ Js.cons (ihv h.1) (ihes h.2)
  | entry k v es ihv ihes =>
    rw [stored, if_neg (by rw [h.1]; exact Bool.false_ne_true), ihv h.2.1, ihes h.2.2, Js.nulled]

theorem count_stored_le {i : JsPart} (v : Js i) : (stored v).count ≤ v.count := by
  induction v with
  | undefined | null | bool | notFinite | number | string | nil | empty => exact Nat.le_refl _
  | arr es ih | obj es ih => exact ih
  | cons v es ihv ihes => exact Nat.add_le_add ihv ihes
  | entry k v es ihv ihes =>
    rw [stored]
    split_ifs <;> simp only [Js.count] <;> omega

theorem defined_of_count {i : JsPart} {v : Js i} (h : (stored v).count = v.count) : Defined v := by
  induction v with
  | undefined | null | bool | notFinite | number | string | nil | empty => trivial
  | arr es ih | obj es ih => exact ih h
  | cons v es ihv ihes =>
    have hv := count_stored_le v
    have hes := count_stored_le es
    simp only [stored, Js.count] at h
    exact ⟨ihv (by omega), ihes (by omega)⟩
  | entry k v es ihv ihes =>
    have hv := count_stored_le v
    have hes := count_stored_le es
    rw [stored] at h
    split_ifs at h with hundefined
    · simp only [Js.count] at h
      omega
    · simp only [Js.count] at h
      exact ⟨Bool.eq_false_iff.mpr hundefined, ihv (by omega), ihes (by omega)⟩

theorem without_stored (k : String) {i : JsPart} (v : Js i) : without k (stored v) = stored (without k v) := by
  induction v with
  | entry l v es _ ih =>
    by_cases hl : l = k
    · rw [without, if_pos hl, ← ih, stored]
      split_ifs
      · rfl
      · rw [without, if_pos hl]
    · rw [without, if_neg hl, stored, stored, ← ih]
      split_ifs
      · rfl
      · rw [without, if_neg hl]
  | _ => rfl

theorem reordered_without (k : String) {i : JsPart} {v w : Js i} (h : Reordered v w) :
    Reordered (without k v) (without k w) := by
  induction h with
  | refl v => exact .refl _
  | arr h _ => exact .arr h
  | obj h _ => exact .obj h
  | cons hv hes _ _ => exact .cons hv hes
  | @entry l v w es fs hv _ _ ihes =>
    rw [without, without]
    split_ifs
    · exact ihes
    · exact .entry hv ihes
  | @swap l m v w es =>
    simp only [without]
    split_ifs
    · exact .refl _
    · exact .refl _
    · exact .refl _
    · exact .swap
  | trans _ _ ih ih' => exact ih.trans ih'

theorem not_mem_without (k : String) {i : JsPart} (v : Js i) : k ∉ (without k v).keys := by
  induction v with
  | entry l v es _ ih =>
    rw [without]
    split_ifs with hl
    · exact ih
    · rintro (_ | ⟨_, hk⟩)
      · exact hl rfl
      · exact ih hk
  | _ => exact List.not_mem_nil

theorem without_of_not_mem {k : String} {i : JsPart} {v : Js i} (h : k ∉ v.keys) : without k v = v := by
  induction v with
  | entry l v es _ ih =>
    have hl : l ≠ k := fun heq => h (heq ▸ List.mem_cons_self)
    rw [without, if_neg hl, ih fun hk => h (List.mem_cons_of_mem _ hk)]
  | _ => rfl

theorem keys_without_sublist (k : String) {i : JsPart} (v : Js i) : (without k v).keys.Sublist v.keys := by
  induction v with
  | entry l v es _ ih =>
    rw [without]
    split_ifs
    · exact ih.cons _
    · exact ih.cons_cons _
  | _ => exact .refl _

theorem keysApart_without {R : String → String → Prop} (k : String) {i : JsPart} {v : Js i} (h : v.KeysApart R) :
    (without k v).KeysApart R := by
  induction v with
  | entry l v es _ ih =>
    rw [without]
    split_ifs
    · exact ih h.2
    · exact ⟨h.1, ih h.2⟩
  | _ => exact h

theorem keysApart_providerEvent {R : String → String → Prop} {event : Js .object} (h : (Js.obj event).KeysApart R) :
    (Js.obj (providerEvent event)).KeysApart R :=
  ⟨h.1.sublist (keys_without_sublist _ event), keysApart_without _ h.2⟩

theorem storable_of_defined [Std.LawfulEqCmp localeCompare] {event : Js .object}
    (hunique : (Js.obj event).KeysApart (· ≠ ·)) (h : Defined (providerEvent event)) : Storable localeCompare event :=
  ⟨h, (keysApart_providerEvent hunique).mono fun hne htie => hne (Std.LawfulEqCmp.eq_of_compare htie)⟩

/-! ### What lasts -/

theorem defined_of_digest_stored (hsha : Function.Injective sha256) {event : Js .object}
    (h : channelEventPayloadDigest localeCompare sha256 (stored event) =
      channelEventPayloadDigest localeCompare sha256 event) : Defined (providerEvent event) := by
  have hcopy := (digest_eq_iff hsha).mp h
  have hcount := congrArg Js.count hcopy
  rw [Js.count_canon, Js.count_canon, providerEvent, providerEvent, without_stored] at hcount
  exact defined_of_count hcount

variable [DecidableEq D]

theorem storable_of_digestLasts [Std.TransCmp localeCompare] (hsha : Function.Injective sha256) {event : Js .object}
    (hunique : (Js.obj event).KeysApart (· ≠ ·)) (h : DigestLasts localeCompare sha256 event) :
    Storable localeCompare event := by
  constructor
  · exact defined_of_digest_stored hsha (h.survives _ (.refl _))
  · have hturned : Reordered (providerEvent event) (Js.ofEntries (providerEvent event).flipped.entries.reverse) := by
      have hreverse := Reordered.of_perm (List.reverse_perm (providerEvent event).flipped.entries).symm
      rw [Js.ofEntries_entries] at hreverse
      exact (Reordered.flipped _).trans hreverse
    have hsame : providerEvent (Js.ofEntries (providerEvent event).flipped.entries.reverse) =
        Js.ofEntries (providerEvent event).flipped.entries.reverse :=
      without_of_not_mem fun hk => not_mem_without _ event (hturned.keys_perm.mem_iff.mpr hk)
    have hcanon := (digest_eq_iff hsha).mp (h.steady _ (hsame.symm ▸ hturned))
    rw [hsame] at hcanon
    exact Js.keysApart_of_flipped (keysApart_providerEvent hunique) hcanon.symm

omit [DecidableEq D] in
theorem Storable.stored_eq {event : Js .object} (h : Storable localeCompare event) :
    stored (providerEvent event) = (providerEvent event).nulled := Channels.stored_eq h.1

theorem Storable.digestLasts [Std.TransCmp localeCompare] {event : Js .object} (h : Storable localeCompare event) :
    DigestLasts localeCompare sha256 event := by
  have hsurvives : ∀ copy, ReadBack event copy →
      channelEventPayloadDigest localeCompare sha256 copy = channelEventPayloadDigest localeCompare sha256 event := by
    intro copy hcopy
    have hread : Reordered (providerEvent event).nulled (providerEvent copy) := by
      rw [← h.stored_eq, providerEvent, ← without_stored]
      exact reordered_without _ hcopy
    have hcanon : (Js.obj (providerEvent event).nulled).canon localeCompare =
        (Js.obj (providerEvent copy)).canon localeCompare :=
      (Reordered.obj hread).sameCanon (keysApart_nulled h.2)
    unfold channelEventPayloadDigest
    rw [stableJson_eq, stableJson_eq, ← hcanon, ← canon_nulled (Js.obj (providerEvent event))]
    rfl
  refine ⟨hsurvives, fun copy hcopy now s r hrow hstatus hdigest => ?_, fun other hother => ?_⟩
  · unfold reserveInboxEvent
    rw [hrow]
    simp only [hdigest, hsurvives copy hcopy, hstatus, ne_eq, not_true_eq_false, if_false, reduceCtorEq]
  · have hcanon : (Js.obj (providerEvent event)).canon localeCompare =
        (Js.obj (providerEvent other)).canon localeCompare :=
      (Reordered.obj hother).sameCanon h.2
    unfold channelEventPayloadDigest
    rw [stableJson_eq, stableJson_eq, hcanon]

omit [DecidableEq D] in
theorem Storable.digestTells (hsha : Function.Injective sha256) {event other : Js .object}
    (h : Storable localeCompare event) (h' : Storable localeCompare other) :
    DigestTells localeCompare sha256 event other := by
  intro hdiffer hsame
  have hcanon := congrArg Js.entries (Js.obj.inj ((digest_eq_iff hsha).mp hsame))
  rw [Js.entries_ofEntries, Js.entries_ofEntries] at hcanon
  have hperm := (sortKeys_perm _ _).symm.trans (hcanon.symm ▸ sortKeys_perm localeCompare _)
  have hentries := Reordered.of_perm hperm
  rw [Js.ofEntries_entries, Js.ofEntries_entries] at hentries
  refine hdiffer ?_
  rw [h.stored_eq, h'.stored_eq]
  exact ((Reordered.canon _ _).trans hentries).trans (Reordered.canon _ _).symm

/-- **The digest survives storage of the events that are stored whole.** -/
theorem digest_survives_storage [Std.TransCmp localeCompare] (hsha : Function.Injective sha256)
    {dateParses : String → Bool} (event other : NormalizedChannelEvent dateParses) :
    DigestLasts localeCompare sha256 event.fields ∧ DigestLasts localeCompare sha256 other.fields ∧
        DigestTells localeCompare sha256 event.fields other.fields ↔
      Storable localeCompare event.fields ∧ Storable localeCompare other.fields := by
  constructor
  · rintro ⟨hevent, hother, -⟩
    exact ⟨storable_of_digestLasts hsha event.unique hevent, storable_of_digestLasts hsha other.unique hother⟩
  · rintro ⟨hevent, hother⟩
    exact ⟨hevent.digestLasts, hother.digestLasts, hevent.digestTells hsha hother⟩

end Digest

/-! ### Events of a Telegram chat -/

inductive ChatType
  | privateChat
  | group
  | supergroup
  | channel
  deriving DecidableEq

structure TelegramChat where
  id : String
  type : ChatType
  title : Option String

def optional : Option String → Js .value
  | none => .undefined
  | some s => .string s

def conversationReference (chat : TelegramChat) (messageThreadId : Option String) : Js .object :=
  let externalThreadId := match messageThreadId with
    | some thread => chat.id ++ ":thread:" ++ thread
    | none => chat.id
  let kind := match messageThreadId with
    | some _ => "thread"
    | none => if chat.type = .privateChat then "direct" else "group"
  Js.ofEntries [("externalThreadId", .string externalThreadId),
    ("clientThreadKey", .string ("telegram:" ++ externalThreadId)),
    ("kind", .string kind),
    ("subject", if chat.type = .privateChat then .undefined else optional chat.title)]

structure NormalizationContext where
  companyId : String
  channelAccountId : String
  receivedAt : String

/-- The `conversation.upsert` event of `referenceEvents`. -/
def conversationEvent (updateId : String) (conversation : Js .object) (occurredAt : String)
    (context : NormalizationContext) : Js .object :=
  Js.ofEntries [("contractVersion", .number ⟨['1'], List.cons_ne_nil _ _, List.forall_mem_singleton.mpr rfl⟩),
    ("eventId", .string ("telegram:" ++ updateId ++ ":conversation.upsert")),
    ("companyId", .string context.companyId),
    ("channelAccountId", .string context.channelAccountId),
    ("channel", .string "telegram"),
    ("provider", .string "telegram_bot"),
    ("kind", .string "conversation.upsert"),
    ("providerOccurredAt", .string occurredAt),
    ("receivedAt", .string context.receivedAt),
    ("payload", .obj (Js.ofEntries [("conversation", .obj conversation)]))]

/-! ### Examples -/

section Examples

def goodTimes (s : String) : Bool := s = "2026-09-08T12:00:00.000Z" || s = "2026-09-08T12:00:01.000Z"

def chatEvent (chat : TelegramChat) : Js .object :=
  conversationEvent "42" (conversationReference chat none) "2026-09-08T12:00:00.000Z"
    ⟨"company", "account", "2026-09-08T12:00:01.000Z"⟩

def groupEvent (title : String) : NormalizedChannelEvent goodTimes where
  fields := chatEvent ⟨"-100", .group, some title⟩
  unique := by simp [chatEvent, conversationEvent, conversationReference, optional, Js.ofEntries, Js.KeysApart, Js.keys,
    Js.entries]
  accepted := rfl

theorem groupEvent_storable (title : String) : Storable compare (groupEvent title).fields := by
  refine storable_of_defined (groupEvent title).unique ?_
  simp [groupEvent, chatEvent, conversationEvent, conversationReference, optional, providerEvent, without, Js.ofEntries,
    Defined, isUndefined]

theorem digest_survives_storage_group :
    DigestLasts compare id (groupEvent "Team").fields ∧ DigestLasts compare id (groupEvent "Support").fields ∧
      DigestTells compare id (groupEvent "Team").fields (groupEvent "Support").fields :=
  (digest_survives_storage Function.injective_id (groupEvent "Team") (groupEvent "Support")).mpr
    ⟨groupEvent_storable "Team", groupEvent_storable "Support"⟩

def privateEvent : Js .object := chatEvent ⟨"10", .privateChat, none⟩

/-- The event of a private chat is stored under its digest; the retry takes the stored copy for another event. -/
theorem private_chat_quarantined :
    assertNormalizedChannelEvent goodTimes privateEvent = .ok () ∧ ReadBack privateEvent (stored privateEvent) ∧
      channelEventPayloadDigest compare id (stored privateEvent) ≠ channelEventPayloadDigest compare id privateEvent ∧
      ((reserveInboxEvent (channelEventPayloadDigest compare id) 6000
        ⟨some ⟨.pending, channelEventPayloadDigest compare id privateEvent, stored privateEvent, 1, 5000, some "timeout"⟩, []⟩
        (stored privateEvent)).1.row.map fun r => (r.status, r.lastErrorCode)) =
          some (.quarantined, some "event_identity_collision") := by
  have hne : channelEventPayloadDigest compare id (stored privateEvent) ≠
      channelEventPayloadDigest compare id privateEvent := fun h => by
    have hdefined := defined_of_digest_stored Function.injective_id h
    simp [privateEvent, chatEvent, conversationEvent, conversationReference, providerEvent, without, Js.ofEntries, Defined,
      isUndefined] at hdefined
  refine ⟨rfl, .refl _, hne, ?_⟩
  unfold reserveInboxEvent
  dsimp only
  rw [if_pos hne.symm]
  rfl

end Examples

end TeamInbox.Channels
