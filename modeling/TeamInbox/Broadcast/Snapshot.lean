import TeamInbox.Broadcast.Audience
import TeamInbox.Lib.Lines

/-!
# TeamInbox.Broadcast.Snapshot — what a resolved audience says

The loop keeps the jids it has accepted, so its verdict on a contact depends on the contacts before it.  Here
the verdict is stated without the loop: the first failing test of the contact alone, and for a contact that
fails none whether an earlier one with the same jid fails none either (`resolveBulkAudience_eq`).

The hash is taken of sorted lines.  `audiencePreimage_inj` says what these lines determine.
-/

namespace TeamInbox.Broadcast

open Lib

/-! ### The verdict on a contact -/

section Verdict

variable (d : Directory) (audience : BulkJobAudience)

/-- The tests of a contact alone, in the order of the branches, and whether the contact fails them. -/
def ownTests (contact : AudienceContact) : List (BulkRecipientSkipReason × Bool) :=
  [(.isGroup, contact.isGroup),
    (.noJid, decide (contact.jid.getD "" = "")),
    (.blocked, contact.isBlocked),
    (.noConnection, (d.connectionOf contact).isNone),
    (.connectionArchived, (d.connectionOf contact).any (·.2.archived)),
    (.connectionFiltered, audience.connectionId.any fun c => (d.connectionOf contact).any fun k => decide (k.1 ≠ c))]

def firstFailing (tests : List (BulkRecipientSkipReason × Bool)) : Option BulkRecipientSkipReason :=
  (tests.find? (·.2)).map (·.1)

def passes (contact : AudienceContact) : Bool := (firstFailing (ownTests d audience contact)).isNone

def precedes (a b : AudienceContact) : Bool :=
  decide (a.createdAt < b.createdAt ∨ (a.createdAt = b.createdAt ∧ a.id < b.id))

/-- An earlier contact of the audience that passes has the jid. -/
def takenBefore (contact : AudienceContact) : Bool :=
  d.contacts.any fun c => d.selects audience c && passes d audience c && precedes c contact &&
    decide (c.jid = contact.jid)

def expectedReason (contact : AudienceContact) : Option BulkRecipientSkipReason :=
  firstFailing (ownTests d audience contact ++ [(.duplicateJid, takenBefore d audience contact)])

def recipientOf (contact : AudienceContact) (skipReason : Option BulkRecipientSkipReason) : ResolvedRecipient :=
  ⟨contact.id, contact.jid, (d.connectionOf contact).map (·.1), (d.connectionOf contact).bind (·.2.name),
    contact.customName, contact.pushName, contact.phoneNumber, skipReason⟩

end Verdict

theorem firstFailing_append (tests : List (BulkRecipientSkipReason × Bool)) (reason : BulkRecipientSkipReason)
    (fails : Bool) : firstFailing (tests ++ [(reason, fails)]) =
      (firstFailing tests).or (if fails then some reason else none) := by
  unfold firstFailing
  rw [List.find?_append]
  cases tests.find? (·.2) with
  | some t => rfl
  | none => cases fails <;> rfl

section Loop

variable {d : Directory} {audience : BulkJobAudience} {contact : AudienceContact} {seenJids : List String}

theorem skipReasonFor_eq (d : Directory) (audience : BulkJobAudience) (seenJids : List String) (contact : AudienceContact) :
    skipReasonFor d audience seenJids contact =
      firstFailing (ownTests d audience contact ++ [(.duplicateJid, decide (contact.jid.getD "" ∈ seenJids))]) := by
  unfold skipReasonFor firstFailing ownTests
  dsimp only
  cases contact.isGroup with
  | true => rfl
  | false =>
    by_cases hjid : contact.jid.getD "" = ""
    · simp [hjid]
    · cases contact.isBlocked with
      | true => simp [hjid]
      | false =>
        cases d.connectionOf contact with
        | none => simp [hjid]
        | some connection =>
          by_cases harchived : connection.2.archived = true
          · simp [hjid, harchived]
          · by_cases hfilter : (audience.connectionId.any fun c => decide (connection.1 ≠ c)) = true
            · simp_all
            · by_cases hseen : contact.jid.getD "" ∈ seenJids
              · simp_all
              · simp_all

theorem passes_iff : passes d audience contact = true ↔ firstFailing (ownTests d audience contact) = none :=
  Option.isNone_iff_eq_none

theorem expectedReason_eq_none : expectedReason d audience contact = none ↔
    passes d audience contact = true ∧ takenBefore d audience contact = false := by
  unfold expectedReason
  rw [passes_iff, firstFailing_append]
  cases firstFailing (ownTests d audience contact) <;> cases takenBefore d audience contact <;> simp

/-- What the loop holds after the contacts `done`. -/
structure LoopInv (d : Directory) (audience : BulkJobAudience) (done : List AudienceContact) (lists : ResolvedLists) :
    Prop where
  eligible : lists.eligible = (done.filter fun c => (expectedReason d audience c).isNone).map (recipientOf d · none)
  skipped : lists.skipped = (done.filter fun c => (expectedReason d audience c).isSome).map fun c =>
    recipientOf d c (expectedReason d audience c)
  seen : ∀ jid, jid ∈ lists.seenJids ↔ ∃ c ∈ done, passes d audience c = true ∧ c.jid = some jid

theorem passes_jid (h : passes d audience contact = true) : ∃ jid, jid ≠ "" ∧ contact.jid = some jid := by
  cases hjid : contact.jid with
  | some jid =>
    refine ⟨jid, fun hempty => ?_, rfl⟩
    simp [passes_iff, firstFailing, ownTests, hjid, hempty] at h
  | none => simp [passes_iff, firstFailing, ownTests, hjid] at h

theorem precedes_iff {a b : AudienceContact} :
    precedes a b = true ↔ a.createdAt < b.createdAt ∨ (a.createdAt = b.createdAt ∧ a.id < b.id) := decide_eq_true_iff

theorem precedes_asymm {a b : AudienceContact} (h : precedes a b = true) : precedes b a = false := by
  rw [precedes_iff] at h
  refine Bool.eq_false_iff.mpr fun hba => ?_
  rw [precedes_iff] at hba
  omega

theorem mem_audienceContacts :
    contact ∈ d.audienceContacts audience ↔ contact ∈ d.contacts ∧ d.selects audience contact = true :=
  (List.perm_insertionSort _ _).mem_iff.trans List.mem_filter

theorem audienceContacts_pairwise (d : Directory) (audience : BulkJobAudience) :
    (d.audienceContacts audience).Pairwise fun a b => precedes a b = true := by
  let le : AudienceContact → AudienceContact → Prop := fun a b =>
    a.createdAt < b.createdAt ∨ (a.createdAt = b.createdAt ∧ a.id ≤ b.id)
  have htotal : Std.Total le := ⟨fun a b => by dsimp only [le]; omega⟩
  have htrans : IsTrans AudienceContact le := ⟨fun a b c => by dsimp only [le]; omega⟩
  have hsorted : (d.audienceContacts audience).Pairwise le := List.pairwise_insertionSort le _
  have hsub : (d.audienceContacts audience).Perm (d.contacts.filter (d.selects audience)) := List.perm_insertionSort _ _
  have hids : ((d.audienceContacts audience).map (·.id)).Nodup :=
    (hsub.map (·.id)).nodup_iff.mpr (d.ids.sublist (List.filter_sublist.map _))
  refine (hsorted.and (List.pairwise_map.mp hids)).imp fun {a b} hab => ?_
  obtain ⟨hle, hne⟩ := hab
  rw [precedes_iff]
  dsimp only [le] at hle
  omega

section Prefix

variable {done rest : List AudienceContact} {lists : ResolvedLists}

theorem precedes_iff_mem (hall : d.audienceContacts audience = done ++ contact :: rest) {c : AudienceContact}
    (hc : c ∈ d.audienceContacts audience) : precedes c contact = true ↔ c ∈ done := by
  have hpair := audienceContacts_pairwise d audience
  rw [hall] at hpair hc
  obtain ⟨-, hlater, hcross⟩ := List.pairwise_append.mp hpair
  constructor
  · intro hbefore
    rcases List.mem_append.mp hc with hdone | hnext
    · exact hdone
    · rcases List.mem_cons.mp hnext with rfl | hrest
      · rw [precedes_asymm hbefore] at hbefore
        cases hbefore
      · rw [precedes_asymm ((List.pairwise_cons.mp hlater).1 c hrest)] at hbefore
        cases hbefore
  · exact fun hdone => hcross c hdone contact List.mem_cons_self

theorem takenBefore_iff (hall : d.audienceContacts audience = done ++ contact :: rest) :
    takenBefore d audience contact = true ↔ ∃ c ∈ done, passes d audience c = true ∧ c.jid = contact.jid := by
  unfold takenBefore
  rw [List.any_eq_true]
  simp only [Bool.and_eq_true, decide_eq_true_eq]
  constructor
  · rintro ⟨c, hc, ⟨⟨hsel, hpass⟩, hbefore⟩, hjid⟩
    exact ⟨c, (precedes_iff_mem hall (mem_audienceContacts.mpr ⟨hc, hsel⟩)).mp hbefore, hpass, hjid⟩
  · rintro ⟨c, hc, hpass, hjid⟩
    have hmem : c ∈ d.audienceContacts audience := by
      rw [hall]
      exact List.mem_append_left _ hc
    obtain ⟨hcontact, hsel⟩ := mem_audienceContacts.mp hmem
    exact ⟨c, hcontact, ⟨⟨hsel, hpass⟩, (precedes_iff_mem hall hmem).mpr hc⟩, hjid⟩

theorem LoopInv.skipReasonFor_eq (hinv : LoopInv d audience done lists)
    (hall : d.audienceContacts audience = done ++ contact :: rest) :
    skipReasonFor d audience lists.seenJids contact = expectedReason d audience contact := by
  unfold expectedReason
  rw [Broadcast.skipReasonFor_eq, firstFailing_append, firstFailing_append]
  cases hown : firstFailing (ownTests d audience contact) with
  | some reason => rfl
  | none =>
    obtain ⟨jid, -, hjid⟩ := passes_jid (passes_iff.mpr hown)
    have hseen : decide (contact.jid.getD "" ∈ lists.seenJids) = takenBefore d audience contact := by
      refine Bool.eq_iff_iff.mpr ?_
      rw [decide_eq_true_eq, takenBefore_iff hall, hjid]
      exact hinv.seen jid
    rw [hseen]

theorem LoopInv.step (hinv : LoopInv d audience done lists) (hall : d.audienceContacts audience = done ++ contact :: rest) :
    LoopInv d audience (done ++ [contact]) (resolveContact d audience lists contact) := by
  have hmove : resolveContact d audience lists contact =
      if (expectedReason d audience contact).isSome then
        { lists with skipped := lists.skipped ++ [recipientOf d contact (expectedReason d audience contact)] }
      else { lists with
        eligible := lists.eligible ++ [recipientOf d contact (expectedReason d audience contact)]
        seenJids := contact.jid.getD "" :: lists.seenJids } := by
    unfold resolveContact
    dsimp only
    rw [hinv.skipReasonFor_eq hall]
    rfl
  have hsnoc : ∀ j, (∃ c ∈ done ++ [contact], passes d audience c = true ∧ c.jid = some j) ↔
      (passes d audience contact = true ∧ contact.jid = some j) ∨ j ∈ lists.seenJids := by
    intro j
    rw [hinv.seen]
    constructor
    · rintro ⟨c, hc, hp⟩
      rcases List.mem_append.mp hc with hc | hc
      · exact .inr ⟨c, hc, hp⟩
      · exact .inl (List.mem_singleton.mp hc ▸ hp)
    · rintro (hp | ⟨c, hc, hp⟩)
      · exact ⟨contact, List.mem_append_right _ List.mem_cons_self, hp⟩
      · exact ⟨c, List.mem_append_left _ hc, hp⟩
  rw [hmove]
  cases hexp : expectedReason d audience contact with
  | none =>
    have hpass := (expectedReason_eq_none.mp hexp).1
    obtain ⟨jid, -, hjid⟩ := passes_jid hpass
    refine ⟨?_, ?_, fun j => ?_⟩
    · simp [hinv.eligible, hexp]
    · simp [hinv.skipped, hexp]
    · rw [hsnoc]
      simp [hpass, hjid, eq_comm]
  | some reason =>
    refine ⟨?_, ?_, fun j => ?_⟩
    · simp [hinv.eligible, hexp]
    · simp [hinv.skipped, hexp]
    · rw [hsnoc]
      refine (or_iff_right_of_imp ?_).symm
      -- A contact that passes and is skipped is a duplicate, so its jid is seen already.
      rintro ⟨hpass, hjid⟩
      have htaken : takenBefore d audience contact = true := by
        refine Bool.not_eq_false _ |>.mp fun hfree => ?_
        rw [expectedReason_eq_none.mpr ⟨hpass, hfree⟩] at hexp
        cases hexp
      obtain ⟨c, hc, hp, hsame⟩ := (takenBefore_iff hall).mp htaken
      exact (hinv.seen j).mpr ⟨c, hc, hp, hsame.trans hjid⟩

end Prefix

theorem foldl_loopInv (done rest : List AudienceContact) (lists : ResolvedLists)
    (hinv : LoopInv d audience done lists) (hall : d.audienceContacts audience = done ++ rest) :
    LoopInv d audience (d.audienceContacts audience) (rest.foldl (resolveContact d audience) lists) := by
  induction rest generalizing done lists with
  | nil =>
    rw [hall, List.append_nil]
    exact hinv
  | cons contact rest ih =>
    refine ih (done ++ [contact]) _ (hinv.step hall) ?_
    rw [hall, List.append_assoc]
    rfl

/-- **The audience without the loop.** -/
theorem resolveBulkAudience_eq (digest : String → String) (d : Directory) (audience : BulkJobAudience) :
    (resolveBulkAudience digest d audience).eligible =
        ((d.audienceContacts audience).filter fun c => (expectedReason d audience c).isNone).map (recipientOf d · none) ∧
      (resolveBulkAudience digest d audience).skipped =
        ((d.audienceContacts audience).filter fun c => (expectedReason d audience c).isSome).map fun c =>
          recipientOf d c (expectedReason d audience c) := by
  have hstart : LoopInv d audience [] ⟨[], [], []⟩ := ⟨rfl, rfl, fun j => by simp⟩
  have hend := foldl_loopInv [] (d.audienceContacts audience) _ hstart rfl
  exact ⟨hend.eligible, hend.skipped⟩

end Loop

/-! ### The snapshot -/

structure SnapshotOf (d : Directory) (audience : BulkJobAudience) (resolved : ResolvedAudience) : Prop where
  once : (resolved.recipients.map (·.contactId)).Nodup
  covers : ∀ c, c ∈ resolved.recipients.map (·.contactId) ↔
    ∃ contact ∈ d.contacts, contact.id = c ∧ d.selects audience contact = true
  eligible : ∀ r ∈ resolved.eligible, ∃ contact ∈ d.contacts, d.selects audience contact = true ∧
    r = recipientOf d contact none ∧ contact.isGroup = false ∧ contact.isBlocked = false ∧
    (∃ jid, jid ≠ "" ∧ contact.jid = some jid) ∧
    ∃ connectionId connection, contact.connectionId = some connectionId ∧ d.connections connectionId = some connection ∧
      connection.archived = false ∧ ∀ c, audience.connectionId = some c → connectionId = c
  distinct : (resolved.eligible.map (·.jid)).Nodup
  /-- For every jid of a contact that passes, the earliest of these contacts. -/
  earliest : ∀ contact ∈ d.contacts, d.selects audience contact = true → passes d audience contact = true →
    ∃ first ∈ d.contacts, d.selects audience first = true ∧ passes d audience first = true ∧
      first.jid = contact.jid ∧ recipientOf d first none ∈ resolved.eligible ∧
      ∀ c ∈ d.contacts, d.selects audience c = true → passes d audience c = true → c.jid = contact.jid →
        c = first ∨ precedes first c = true
  firstReason : ∀ r ∈ resolved.skipped, ∃ contact ∈ d.contacts, d.selects audience contact = true ∧
    r = recipientOf d contact (expectedReason d audience contact) ∧ expectedReason d audience contact ≠ none

section Snapshot

variable {d : Directory} {audience : BulkJobAudience} {contact : AudienceContact}

theorem passes_spec (h : passes d audience contact = true) : contact.isGroup = false ∧ contact.isBlocked = false ∧
    ∃ connectionId connection, contact.connectionId = some connectionId ∧ d.connections connectionId = some connection ∧
      connection.archived = false ∧ ∀ c, audience.connectionId = some c → connectionId = c := by
  have hall : ∀ t ∈ ownTests d audience contact, t.2 = false := by
    have hnone := passes_iff.mp h
    unfold firstFailing at hnone
    rw [Option.map_eq_none_iff, List.find?_eq_none] at hnone
    exact fun t ht => Bool.eq_false_iff.mpr (hnone t ht)
  simp only [ownTests, List.forall_mem_cons] at hall
  obtain ⟨hgroup, -, hblocked, hconnection, harchived, hfilter, -⟩ := hall
  refine ⟨hgroup, hblocked, ?_⟩
  cases hof : d.connectionOf contact with
  | none =>
    rw [hof] at hconnection
    cases hconnection
  | some k =>
    rw [hof] at harchived hfilter
    obtain ⟨connectionId, hid, hk⟩ := Option.bind_eq_some_iff.mp hof
    obtain ⟨connection, hfound, rfl⟩ := Option.map_eq_some_iff.mp hk
    refine ⟨connectionId, connection, hid, hfound, harchived, fun c hc => ?_⟩
    rw [hc] at hfilter
    exact not_not.mp (of_decide_eq_false hfilter)

theorem exists_first (hc : contact ∈ d.contacts) (hsel : d.selects audience contact = true)
    (hpass : passes d audience contact = true) :
    ∃ first ∈ d.audienceContacts audience, expectedReason d audience first = none ∧ first.jid = contact.jid ∧
      ∀ c ∈ d.audienceContacts audience, passes d audience c = true → c.jid = contact.jid →
        c = first ∨ precedes first c = true := by
  let same : AudienceContact → Bool := fun c => passes d audience c && decide (c.jid = contact.jid)
  have hsame : ∀ {c}, same c = true ↔ passes d audience c = true ∧ c.jid = contact.jid := by
    intro c
    rw [← decide_eq_true_iff (p := c.jid = contact.jid), ← Bool.and_eq_true]
  have hsome : ((d.audienceContacts audience).find? same).isSome = true :=
    List.find?_isSome.mpr ⟨contact, mem_audienceContacts.mpr ⟨hc, hsel⟩, hsame.mpr ⟨hpass, rfl⟩⟩
  obtain ⟨first, hfirst⟩ := Option.isSome_iff_exists.mp hsome
  obtain ⟨hp, before, after, hsplit, hnone⟩ := List.find?_eq_some_iff_append.mp hfirst
  obtain ⟨hfirstpass, hjid⟩ := hsame.mp hp
  have hnotbefore : ∀ c ∈ before, passes d audience c = true → c.jid = contact.jid → False := by
    intro c hmem hcp hcj
    have hfalse := hnone c hmem
    rw [hsame.mpr ⟨hcp, hcj⟩] at hfalse
    cases hfalse
  refine ⟨first, List.mem_of_find?_eq_some hfirst, expectedReason_eq_none.mpr ⟨hfirstpass, ?_⟩, hjid, ?_⟩
  · refine Bool.eq_false_iff.mpr fun htaken => ?_
    obtain ⟨c, hmem, hcp, hcj⟩ := (takenBefore_iff hsplit).mp htaken
    exact hnotbefore c hmem hcp (hcj.trans hjid)
  · intro c hmem hcp hcj
    have hpair := audienceContacts_pairwise d audience
    rw [hsplit] at hpair hmem
    rcases List.mem_append.mp hmem with hbefore | hnext
    · exact absurd hcj (hnotbefore c hbefore hcp)
    · rcases List.mem_cons.mp hnext with rfl | hafter
      · exact .inl rfl
      · exact .inr ((List.pairwise_cons.mp (List.pairwise_append.mp hpair).2.1).1 c hafter)

theorem resolveBulkAudience_snapshot (digest : String → String) (d : Directory) (audience : BulkJobAudience) :
    SnapshotOf d audience (resolveBulkAudience digest d audience) := by
  obtain ⟨heligible, hskipped⟩ := resolveBulkAudience_eq digest d audience
  obtain ⟨honce, hcovers⟩ := resolveBulkAudience_contacts digest d audience
  refine ⟨honce, hcovers, fun r hr => ?_, ?_, fun contact hc hsel hpass => ?_, fun r hr => ?_⟩
  · rw [heligible] at hr
    obtain ⟨contact, hcontact, rfl⟩ := List.mem_map.mp hr
    obtain ⟨hmem, hnone⟩ := List.mem_filter.mp hcontact
    obtain ⟨hc, hsel⟩ := mem_audienceContacts.mp hmem
    have hpass := (expectedReason_eq_none.mp (Option.isNone_iff_eq_none.mp hnone)).1
    obtain ⟨hgroup, hblocked, hconnection⟩ := passes_spec hpass
    exact ⟨contact, hc, hsel, rfl, hgroup, hblocked, passes_jid hpass, hconnection⟩
  · rw [heligible, List.map_map]
    refine List.pairwise_map.mpr ((audienceContacts_pairwise d audience).filter _ |>.imp_of_mem ?_)
    -- The later of two accepted contacts would have found the jid of the earlier one.
    intro a b ha hb hab heq
    obtain ⟨hmem, hnone⟩ := List.mem_filter.mp ha
    obtain ⟨hmem', hnone'⟩ := List.mem_filter.mp hb
    obtain ⟨hc, hsel⟩ := mem_audienceContacts.mp hmem
    have hpass := (expectedReason_eq_none.mp (Option.isNone_iff_eq_none.mp hnone)).1
    have hfree := (expectedReason_eq_none.mp (Option.isNone_iff_eq_none.mp hnone')).2
    have htaken : takenBefore d audience b = true := by
      refine List.any_eq_true.mpr ⟨a, hc, ?_⟩
      rw [hsel, hpass, hab]
      exact decide_eq_true heq
    rw [htaken] at hfree
    cases hfree
  · obtain ⟨first, hmem, hnone, hjid, hleast⟩ := exists_first hc hsel hpass
    obtain ⟨hfc, hfsel⟩ := mem_audienceContacts.mp hmem
    refine ⟨first, hfc, hfsel, (expectedReason_eq_none.mp hnone).1, hjid, ?_, fun c hc hsel hcp hcj => ?_⟩
    · rw [heligible]
      exact List.mem_map.mpr ⟨first, List.mem_filter.mpr ⟨hmem, Option.isNone_iff_eq_none.mpr hnone⟩, rfl⟩
    · exact hleast c (mem_audienceContacts.mpr ⟨hc, hsel⟩) hcp hcj
  · rw [hskipped] at hr
    obtain ⟨contact, hcontact, rfl⟩ := List.mem_map.mp hr
    obtain ⟨hmem, hsome⟩ := List.mem_filter.mp hcontact
    obtain ⟨hc, hsel⟩ := mem_audienceContacts.mp hmem
    exact ⟨contact, hc, hsel, rfl, Option.isSome_iff_ne_none.mp hsome⟩

end Snapshot

/-! ### The order of the lines -/

section Units

/-- The code units of a character and what follows it. -/
def charUnits (c : Char) : List ℕ :=
  let n := c.toNat
  if n < 0x10000 then [n] else [0xD800 + (n - 0x10000) / 0x400, 0xDC00 + (n - 0x10000) % 0x400]

theorem charUnits_append_inj {c c' : Char} {t t' : List ℕ} (h : charUnits c ++ t = charUnits c' ++ t') :
    c = c' ∧ t = t' := by
  have hvalid : ∀ c : Char, c.toNat < 0xD800 ∨ (0xDFFF < c.toNat ∧ c.toNat < 0x110000) := fun c => c.valid
  have hc := hvalid c
  have hc' := hvalid c'
  have hinj : c.toNat = c'.toNat → c = c' := fun heq => Char.toNat_inj.mp heq
  unfold charUnits at h
  dsimp only at h
  by_cases hlow : c.toNat < 0x10000
  · by_cases hlow' : c'.toNat < 0x10000
    · rw [if_pos hlow, if_pos hlow'] at h
      obtain ⟨heq, ht⟩ := List.cons.inj h
      exact ⟨hinj heq, ht⟩
    · rw [if_pos hlow, if_neg hlow'] at h
      obtain ⟨heq, -⟩ := List.cons.inj h
      omega
  · by_cases hlow' : c'.toNat < 0x10000
    · rw [if_neg hlow, if_pos hlow'] at h
      obtain ⟨heq, -⟩ := List.cons.inj h
      omega
    · rw [if_neg hlow, if_neg hlow'] at h
      obtain ⟨hhigh, hrest⟩ := List.cons.inj h
      obtain ⟨hlast, ht⟩ := List.cons.inj hrest
      exact ⟨hinj (by omega), ht⟩

theorem charUnits_ne_nil (c : Char) : charUnits c ≠ [] := by
  unfold charUnits
  dsimp only
  split <;> exact List.cons_ne_nil _ _

theorem utf16Units_injective : Function.Injective utf16Units := by
  have hlist : ∀ l l' : List Char, l.flatMap charUnits = l'.flatMap charUnits → l = l' := by
    intro l
    induction l with
    | nil =>
      intro l' h
      cases l' with
      | nil => rfl
      | cons c' l' => exact absurd (List.append_eq_nil_iff.mp h.symm).1 (charUnits_ne_nil c')
    | cons c l ih =>
      intro l' h
      cases l' with
      | nil => exact absurd (List.append_eq_nil_iff.mp h).1 (charUnits_ne_nil c)
      | cons c' l' =>
        rw [List.flatMap_cons, List.flatMap_cons] at h
        obtain ⟨rfl, hrest⟩ := charUnits_append_inj h
        rw [ih l' hrest]
  exact fun s t h => String.toList_inj.mp (hlist _ _ h)

end Units

/-! ### What is hashed -/

/-- What `computeAudienceHash` reads of an eligible recipient. -/
structure EligibleEntry where
  contactId : String
  connectionId : Option String
  jid : Option String
  deriving DecidableEq

structure SkippedEntry where
  contactId : String
  skipReason : Option String
  deriving DecidableEq

def EligibleEntry.line (r : EligibleEntry) : String :=
  "e:" ++ r.contactId ++ ":" ++ r.connectionId.getD "" ++ ":" ++ r.jid.getD ""

def SkippedEntry.line (r : SkippedEntry) : String := "s:" ++ r.contactId ++ ":" ++ r.skipReason.getD ""

/-- The text `computeAudienceHash` hashes. -/
def audiencePreimage (eligible : List EligibleEntry) (skipped : List SkippedEntry) : String :=
  sortedText (fun a b => utf16Units a ≤ utf16Units b) (eligible.map (·.line) ++ skipped.map (·.line))

def ResolvedRecipient.eligibleEntry (r : ResolvedRecipient) : EligibleEntry :=
  ⟨toString r.contactId, r.connectionId.map fun c => toString c, r.jid⟩

def ResolvedRecipient.skippedEntry (r : ResolvedRecipient) : SkippedEntry :=
  ⟨toString r.contactId, r.skipReason.map (·.text)⟩

theorem computeAudienceHash_eq (digest : String → String) (eligible skipped : List ResolvedRecipient) :
    computeAudienceHash digest eligible skipped =
      digest (audiencePreimage (eligible.map (·.eligibleEntry)) (skipped.map (·.skippedEntry))) := by
  unfold computeAudienceHash audiencePreimage sortedText
  dsimp only
  rw [List.map_map, List.map_map]
  rfl

section Preimage

variable {eligible eligible' : List EligibleEntry} {skipped skipped' : List SkippedEntry}

theorem audiencePreimage_perm (he : eligible.Perm eligible') (hs : skipped.Perm skipped') :
    audiencePreimage eligible skipped = audiencePreimage eligible' skipped' := by
  let le : String → String → Prop := fun a b => utf16Units a ≤ utf16Units b
  have htotal : Std.Total le := ⟨fun a b => le_total _ _⟩
  have htrans : IsTrans String le := ⟨fun _ _ _ => le_trans⟩
  have hantisymm : Std.Antisymm le := ⟨fun _ _ hab hba => utf16Units_injective (le_antisymm hab hba)⟩
  exact sortedText_perm ((he.map _).append (hs.map _))

def IdText (s : String) : Prop := ':' ∉ s.toList ∧ LineOf s

structure EligibleEntry.Plain (r : EligibleEntry) : Prop where
  contactId : IdText r.contactId
  connectionId : ∀ c, r.connectionId = some c → IdText c
  jid : ∀ jid, r.jid = some jid → LineOf jid

structure SkippedEntry.Plain (r : SkippedEntry) : Prop where
  contactId : IdText r.contactId
  skipReason : ∀ reason, r.skipReason = some reason → LineOf reason

/-- What the line of an eligible recipient says: what is missing is written as the empty text. -/
def EligibleEntry.written (r : EligibleEntry) : String × String × String :=
  (r.contactId, r.connectionId.getD "", r.jid.getD "")

def SkippedEntry.written (r : SkippedEntry) : String × String := (r.contactId, r.skipReason.getD "")

def writtenLine : (String × String × String) ⊕ (String × String) → String
  | .inl (contactId, connectionId, jid) => "e:" ++ contactId ++ ":" ++ connectionId ++ ":" ++ jid
  | .inr (contactId, skipReason) => "s:" ++ contactId ++ ":" ++ skipReason

structure WrittenPlain (w : (String × String × String) ⊕ (String × String)) : Prop where
  eligible : ∀ t, w = .inl t → IdText t.1 ∧ IdText t.2.1 ∧ LineOf t.2.2
  skipped : ∀ t, w = .inr t → IdText t.1 ∧ LineOf t.2

theorem lineOf_append {s t : String} (hs : LineOf s) (ht : LineOf t) : LineOf (s ++ t) := by
  unfold LineOf at *
  rw [String.toList_append, List.mem_append, not_or]
  exact ⟨hs, ht⟩

theorem idText_empty : IdText "" := ⟨by simp, by simp [LineOf]⟩

theorem writtenLine_ok {w : (String × String × String) ⊕ (String × String)} (h : WrittenPlain w) :
    LineOf (writtenLine w) ∧ writtenLine w ≠ "" := by
  have hsep : LineOf ":" := by simp [LineOf]
  have htag : LineOf "e:" ∧ LineOf "s:" := ⟨by simp [LineOf], by simp [LineOf]⟩
  rcases w with ⟨contactId, connectionId, jid⟩ | ⟨contactId, skipReason⟩
  · obtain ⟨hc, hk, hj⟩ := h.eligible _ rfl
    refine ⟨lineOf_append (lineOf_append (lineOf_append (lineOf_append (lineOf_append htag.1 hc.2) hsep) hk.2) hsep) hj, ?_⟩
    intro hempty
    have hlist := congrArg String.toList hempty
    simp [writtenLine] at hlist
  · obtain ⟨hc, hr⟩ := h.skipped _ rfl
    refine ⟨lineOf_append (lineOf_append (lineOf_append htag.2 hc.2) hsep) hr, ?_⟩
    intro hempty
    have hlist := congrArg String.toList hempty
    simp [writtenLine] at hlist

theorem writtenLine_inj {w w' : (String × String × String) ⊕ (String × String)} (h : WrittenPlain w)
    (h' : WrittenPlain w') (heq : writtenLine w = writtenLine w') : w = w' := by
  have htag : ∀ {a b : String}, "e:" ++ a ≠ "s:" ++ b := by
    intro a b hab
    have hlist := congrArg String.toList hab
    simp at hlist
  rcases w with ⟨c, k, j⟩ | ⟨c, r⟩ <;> rcases w' with ⟨c', k', j'⟩ | ⟨c', r'⟩ <;>
    simp only [writtenLine, String.append_assoc] at heq
  · obtain ⟨hc, hk, -⟩ := h.eligible _ rfl
    obtain ⟨hc', hk', -⟩ := h'.eligible _ rfl
    obtain ⟨rfl, hfields⟩ := field_inj hc.1 hc'.1 ((String.append_right_inj "e:").mp heq)
    obtain ⟨rfl, rfl⟩ := field_inj hk.1 hk'.1 hfields
    rfl
  · exact absurd heq htag
  · exact absurd heq.symm htag
  · obtain ⟨hc, -⟩ := h.skipped _ rfl
    obtain ⟨hc', -⟩ := h'.skipped _ rfl
    obtain ⟨rfl, rfl⟩ := field_inj hc.1 hc'.1 ((String.append_right_inj "s:").mp heq)
    rfl

def writtenEntries (eligible : List EligibleEntry) (skipped : List SkippedEntry) :
    List ((String × String × String) ⊕ (String × String)) :=
  eligible.map (fun r => .inl r.written) ++ skipped.map fun r => .inr r.written

theorem audiencePreimage_eq (eligible : List EligibleEntry) (skipped : List SkippedEntry) :
    audiencePreimage eligible skipped =
      sortedText (fun a b => utf16Units a ≤ utf16Units b) ((writtenEntries eligible skipped).map writtenLine) := by
  unfold audiencePreimage writtenEntries
  rw [List.map_append, List.map_map, List.map_map]
  rfl

theorem writtenEntries_plain (he : ∀ r ∈ eligible, r.Plain) (hs : ∀ r ∈ skipped, r.Plain) :
    ∀ w ∈ writtenEntries eligible skipped, WrittenPlain w := by
  intro w hw
  rcases List.mem_append.mp hw with hw | hw
  · obtain ⟨r, hr, rfl⟩ := List.mem_map.mp hw
    refine ⟨fun t ht => ?_, nofun⟩
    cases ht
    refine ⟨(he r hr).contactId, ?_, ?_⟩
    · show IdText (r.connectionId.getD "")
      cases hc : r.connectionId with
      | none => exact idText_empty
      | some c => exact (he r hr).connectionId c hc
    · show LineOf (r.jid.getD "")
      cases hjid : r.jid with
      | none => exact idText_empty.2
      | some jid => exact (he r hr).jid jid hjid
  · obtain ⟨r, hr, rfl⟩ := List.mem_map.mp hw
    refine ⟨nofun, fun t ht => ?_⟩
    cases ht
    refine ⟨(hs r hr).contactId, ?_⟩
    show LineOf (r.skipReason.getD "")
    cases hreason : r.skipReason with
    | none => exact idText_empty.2
    | some reason => exact (hs r hr).skipReason reason hreason

/-- **What the preimage says.** -/
theorem audiencePreimage_inj (he : ∀ r ∈ eligible, r.Plain) (he' : ∀ r ∈ eligible', r.Plain)
    (hs : ∀ r ∈ skipped, r.Plain) (hs' : ∀ r ∈ skipped', r.Plain)
    (h : audiencePreimage eligible skipped = audiencePreimage eligible' skipped') :
    (eligible.map (·.written)).Perm (eligible'.map (·.written)) ∧
      (skipped.map (·.written)).Perm (skipped'.map (·.written)) := by
  have hplain := writtenEntries_plain he hs
  have hplain' := writtenEntries_plain he' hs'
  rw [audiencePreimage_eq, audiencePreimage_eq] at h
  have hlines : ((writtenEntries eligible skipped).map writtenLine).Perm
      ((writtenEntries eligible' skipped').map writtenLine) := by
    refine sortedText_inj (fun s hs => ?_) (fun s hs => ?_) h
    · obtain ⟨w, hw, rfl⟩ := List.mem_map.mp hs
      exact writtenLine_ok (hplain w hw)
    · obtain ⟨w, hw, rfl⟩ := List.mem_map.mp hs
      exact writtenLine_ok (hplain' w hw)
  have hentries := perm_of_map (fun w hw w' hw' => writtenLine_inj (hplain w hw) (hplain' w' hw')) hlines
  have hleft : ∀ (e : List EligibleEntry) (t : List SkippedEntry),
      (writtenEntries e t).filterMap Sum.getLeft? = e.map (·.written) := by
    intro e t
    simp [writtenEntries, List.filterMap_append, List.filterMap_map, Function.comp_def]
  have hright : ∀ (e : List EligibleEntry) (t : List SkippedEntry),
      (writtenEntries e t).filterMap Sum.getRight? = t.map (·.written) := by
    intro e t
    simp [writtenEntries, List.filterMap_append, List.filterMap_map, Function.comp_def]
  constructor
  · have hperm := hentries.filterMap Sum.getLeft?
    rwa [hleft, hleft] at hperm
  · have hperm := hentries.filterMap Sum.getRight?
    rwa [hright, hright] at hperm

def EligibleEntry.Given (r : EligibleEntry) : Prop := r.connectionId.isSome ∧ r.jid.isSome

def SkippedEntry.Given (r : SkippedEntry) : Prop := r.skipReason.isSome

theorem EligibleEntry.Given.written_inj {r r' : EligibleEntry} (h : r.Given) (h' : r'.Given)
    (heq : r.written = r'.written) : r = r' := by
  obtain ⟨contactId, connectionId, jid⟩ := r
  obtain ⟨contactId', connectionId', jid'⟩ := r'
  obtain ⟨c, rfl⟩ := Option.isSome_iff_exists.mp h.1
  obtain ⟨j, rfl⟩ := Option.isSome_iff_exists.mp h.2
  obtain ⟨c', rfl⟩ := Option.isSome_iff_exists.mp h'.1
  obtain ⟨j', rfl⟩ := Option.isSome_iff_exists.mp h'.2
  cases heq
  rfl

theorem SkippedEntry.Given.written_inj {r r' : SkippedEntry} (h : r.Given) (h' : r'.Given)
    (heq : r.written = r'.written) : r = r' := by
  obtain ⟨contactId, skipReason⟩ := r
  obtain ⟨contactId', skipReason'⟩ := r'
  obtain ⟨reason, rfl⟩ := Option.isSome_iff_exists.mp h
  obtain ⟨reason', rfl⟩ := Option.isSome_iff_exists.mp h'
  cases heq
  rfl

theorem perm_of_written (he : ∀ r ∈ eligible, r.Given) (he' : ∀ r ∈ eligible', r.Given)
    (hs : ∀ r ∈ skipped, r.Given) (hs' : ∀ r ∈ skipped', r.Given)
    (h : (eligible.map (·.written)).Perm (eligible'.map (·.written)) ∧
      (skipped.map (·.written)).Perm (skipped'.map (·.written))) : eligible.Perm eligible' ∧ skipped.Perm skipped' :=
  ⟨perm_of_map (fun r hr r' hr' => (he r hr).written_inj (he' r' hr')) h.1,
    perm_of_map (fun r hr r' hr' => (hs r hr).written_inj (hs' r' hr')) h.2⟩

/-! ### Resolved audiences -/

theorem idText_toString (n : ℕ) : IdText (toString n) :=
  ⟨fun h => absurd (isDigit_toString n _ h) (by decide), fun h => absurd (isDigit_toString n _ h) (by decide)⟩

theorem text_lineOf (reason : BulkRecipientSkipReason) : LineOf reason.text := by
  cases reason <;> simp [LineOf, BulkRecipientSkipReason.text]

theorem text_injective {reason reason' : BulkRecipientSkipReason} (h : reason.text = reason'.text) : reason = reason' := by
  cases reason <;> cases reason' <;> first | rfl | exact absurd h (by decide)

def ResolvedRecipient.triple (r : ResolvedRecipient) : ℕ × Option ℕ × Option String := (r.contactId, r.connectionId, r.jid)

def ResolvedRecipient.pair (r : ResolvedRecipient) : ℕ × Option BulkRecipientSkipReason := (r.contactId, r.skipReason)

theorem eligibleEntry_inj {r r' : ResolvedRecipient} (h : r.eligibleEntry = r'.eligibleEntry) : r.triple = r'.triple := by
  obtain ⟨hid, hconnection, hjid⟩ := EligibleEntry.mk.inj h
  exact Prod.ext (toString_injective hid)
    (Prod.ext (Option.map_injective (fun _ _ hc => toString_injective hc) hconnection) hjid)

theorem skippedEntry_inj {r r' : ResolvedRecipient} (h : r.skippedEntry = r'.skippedEntry) : r.pair = r'.pair := by
  obtain ⟨hid, hreason⟩ := SkippedEntry.mk.inj h
  exact Prod.ext (toString_injective hid) (Option.map_injective (fun _ _ hc => text_injective hc) hreason)

variable {d : Directory} {audience : BulkJobAudience} {resolved : ResolvedAudience}

theorem SnapshotOf.eligibleEntries (h : SnapshotOf d audience resolved)
    (hjid : ∀ r ∈ resolved.eligible, ∀ jid, r.jid = some jid → LineOf jid) :
    ∀ e ∈ resolved.eligible.map (·.eligibleEntry), e.Plain ∧ e.Given := by
  intro e he
  obtain ⟨r, hr, rfl⟩ := List.mem_map.mp he
  refine ⟨⟨idText_toString _, fun c hc => ?_, hjid r hr⟩, ?_⟩
  · obtain ⟨k, -, rfl⟩ := Option.map_eq_some_iff.mp hc
    exact idText_toString k
  · obtain ⟨contact, -, -, rfl, -, -, ⟨jid, -, hj⟩, connectionId, connection, hid, hfound, -⟩ := h.eligible r hr
    constructor
    · simp [ResolvedRecipient.eligibleEntry, recipientOf, Directory.connectionOf, hid, hfound]
    · simp [ResolvedRecipient.eligibleEntry, recipientOf, hj]

theorem SnapshotOf.skippedEntries (h : SnapshotOf d audience resolved) :
    ∀ e ∈ resolved.skipped.map (·.skippedEntry), e.Plain ∧ e.Given := by
  intro e he
  obtain ⟨r, hr, rfl⟩ := List.mem_map.mp he
  refine ⟨⟨idText_toString _, fun text htext => ?_⟩, ?_⟩
  · obtain ⟨reason, -, rfl⟩ := Option.map_eq_some_iff.mp htext
    exact text_lineOf reason
  · obtain ⟨contact, -, -, rfl, hreason⟩ := h.firstReason r hr
    exact Option.isSome_map.trans (Option.isSome_iff_ne_none.mpr hreason)

theorem SnapshotOf.determined {d' : Directory} {audience' : BulkJobAudience} {resolved' : ResolvedAudience}
    (h : SnapshotOf d audience resolved) (h' : SnapshotOf d' audience' resolved')
    (hjid : ∀ r ∈ resolved.eligible, ∀ jid, r.jid = some jid → LineOf jid)
    (hjid' : ∀ r ∈ resolved'.eligible, ∀ jid, r.jid = some jid → LineOf jid)
    (heq : audiencePreimage (resolved.eligible.map (·.eligibleEntry)) (resolved.skipped.map (·.skippedEntry)) =
      audiencePreimage (resolved'.eligible.map (·.eligibleEntry)) (resolved'.skipped.map (·.skippedEntry))) :
    (resolved.eligible.map (·.triple)).Perm (resolved'.eligible.map (·.triple)) ∧
      (resolved.skipped.map (·.pair)).Perm (resolved'.skipped.map (·.pair)) := by
  have he := h.eligibleEntries hjid
  have he' := h'.eligibleEntries hjid'
  have hs := h.skippedEntries
  have hs' := h'.skippedEntries
  obtain ⟨heligible, hskipped⟩ := perm_of_written (fun r hr => (he r hr).2) (fun r hr => (he' r hr).2)
    (fun r hr => (hs r hr).2) (fun r hr => (hs' r hr).2)
    (audiencePreimage_inj (fun r hr => (he r hr).1) (fun r hr => (he' r hr).1) (fun r hr => (hs r hr).1)
      (fun r hr => (hs' r hr).1) heq)
  exact ⟨map_perm_of_map (fun r hr r' hr' => eligibleEntry_inj) heligible,
    map_perm_of_map (fun r hr r' hr' => skippedEntry_inj) hskipped⟩

end Preimage

/-- The snapshot of an audience, and what its hash is worth: it does not depend on the order of the recipients,
and its preimage says which they are. -/
theorem audience_snapshot (digest : String → String) :
    (∀ d audience, SnapshotOf d audience (resolveBulkAudience digest d audience)) ∧
    (∀ eligible eligible' skipped skipped', eligible.Perm eligible' → skipped.Perm skipped' →
      computeAudienceHash digest eligible skipped = computeAudienceHash digest eligible' skipped') ∧
    (∀ eligible eligible' skipped skipped', eligible.Perm eligible' → skipped.Perm skipped' →
      digest (audiencePreimage eligible skipped) = digest (audiencePreimage eligible' skipped')) ∧
    (∀ eligible eligible' skipped skipped', (∀ r ∈ eligible ++ eligible', r.Plain) → (∀ r ∈ skipped ++ skipped', r.Plain) →
      audiencePreimage eligible skipped = audiencePreimage eligible' skipped' →
      (eligible.map (·.written)).Perm (eligible'.map (·.written)) ∧
        (skipped.map (·.written)).Perm (skipped'.map (·.written)) ∧
        ((∀ r ∈ eligible ++ eligible', r.Given) → (∀ r ∈ skipped ++ skipped', r.Given) →
          eligible.Perm eligible' ∧ skipped.Perm skipped')) ∧
    ∀ d audience d' audience',
      let resolved := resolveBulkAudience digest d audience
      let resolved' := resolveBulkAudience digest d' audience'
      (∀ r ∈ resolved.eligible ++ resolved'.eligible, ∀ jid, r.jid = some jid → LineOf jid) →
      audiencePreimage (resolved.eligible.map (·.eligibleEntry)) (resolved.skipped.map (·.skippedEntry)) =
        audiencePreimage (resolved'.eligible.map (·.eligibleEntry)) (resolved'.skipped.map (·.skippedEntry)) →
      (resolved.eligible.map (·.triple)).Perm (resolved'.eligible.map (·.triple)) ∧
        (resolved.skipped.map (·.pair)).Perm (resolved'.skipped.map (·.pair)) := by
  refine ⟨resolveBulkAudience_snapshot digest, ?_, ?_, ?_, ?_⟩
  · intro eligible eligible' skipped skipped' he hs
    rw [computeAudienceHash_eq, computeAudienceHash_eq, audiencePreimage_perm (he.map _) (hs.map _)]
  · intro eligible eligible' skipped skipped' he hs
    rw [audiencePreimage_perm he hs]
  · intro eligible eligible' skipped skipped' he hs heq
    obtain ⟨hel, hel'⟩ := List.forall_mem_append.mp he
    obtain ⟨hsk, hsk'⟩ := List.forall_mem_append.mp hs
    have hwritten := audiencePreimage_inj hel hel' hsk hsk' heq
    refine ⟨hwritten.1, hwritten.2, fun hgiven hgiven' => ?_⟩
    obtain ⟨hge, hge'⟩ := List.forall_mem_append.mp hgiven
    obtain ⟨hgs, hgs'⟩ := List.forall_mem_append.mp hgiven'
    exact perm_of_written hge hge' hgs hgs' hwritten
  · intro d audience d' audience' resolved resolved' hjid heq
    obtain ⟨hj, hj'⟩ := List.forall_mem_append.mp hjid
    exact (resolveBulkAudience_snapshot digest d audience).determined (resolveBulkAudience_snapshot digest d' audience')
      hj hj' heq

end TeamInbox.Broadcast
